import SafeNetwork.NetworkKnowledge.SingleBranch

/-!
# Spending a DBC

`sn_client/src/api/spentbook_apis.rs`: the elders that are asked to sign a spend may not know the section
key of a spent proof. They say so, and the client tries again and sends them what it knows of the key: a
branch of its DAG with the key in it, and a SAP. It looks the SAP up by the key, but keeps SAPs only for
the leaves of its DAG.
-/

namespace SafeNetwork

open Std Forest

variable {S : SectionScheme} {E : Type}

def SectionTree.getSignedByKey (self : SectionTree S) (sectionKey : S.PublicKey) : Option S.SignedSap :=
  (self.sections.toList.find? fun entry => entry.2.sectionKey = sectionKey).map Prod.snd

/-- What is sent along with a request: a proof chain and a SAP. -/
abbrev SpendKnowledge (S : SectionScheme) : Type := SectionsDAG S.toKeyScheme × S.SignedSap

/-- `sn_client::Error`, as `spend_dbc` tells its cases apart. -/
inductive SpendDbcError (S : SectionScheme) (E : Type) where
  /-- `CmdError` from an elder that does not know the key of a spent proof. -/
  | spentProofUnknownSectionKey (unknownSectionKey : S.PublicKey)
  | dbcSpendRetryAttemptsExceeded (attempts : Nat) (publicKey : S.PublicKey)
  | sectionsDagKeyNotFound (key : S.PublicKey)
  | signedSapNotFound (key : S.PublicKey)
  | other (error : E)

/-- `MAX_SPEND_DBC_ATTEMPS`. -/
def maxSpendDbcAttempts : Nat := 5

/-- What a turn of the loop of `spend_dbc` leads to. -/
inductive SpendTurn (S : SectionScheme) (E : Type) where
  | returned (result : Except (SpendDbcError S E) Unit)
  | retry (networkKnowledge : SpendKnowledge S)

/-- A turn of the loop of `spend_dbc`, from the result of `send_cmd` on. -/
def spendTurn (publicKey : S.PublicKey) (attempts : Nat) (result : Except (SpendDbcError S E) Unit)
    (network : SectionTree S) : SpendTurn S E :=
  match result with
  | .error (.spentProofUnknownSectionKey unknownSectionKey) =>
    if attempts ≥ maxSpendDbcAttempts then
      .returned (.error (.dbcSpendRetryAttemptsExceeded attempts publicKey))
    else
      match network.sectionsDag.singleBranchDagForKey unknownSectionKey with
      | .error _ => .returned (.error (.sectionsDagKeyNotFound unknownSectionKey))
      | .ok (proofChain, _) =>
        match network.getSignedByKey unknownSectionKey with
        | none => .returned (.error (.signedSapNotFound unknownSectionKey))
        | some signedSap => .retry (proofChain, signedSap)
  | result => .returned result

/-- The loop of `spend_dbc`, with a number of retries left. The elders answer to an attempt, by its number
and the knowledge sent along; the client then has some section tree. -/
def spendDbcLoop (publicKey : S.PublicKey)
    (elders : Nat → Option (SpendKnowledge S) → Except (SpendDbcError S E) Unit × SectionTree S) :
    Nat → Option (SpendKnowledge S) → Except (SpendDbcError S E) Unit
  | 0, networkKnowledge =>
    let (result, network) := elders maxSpendDbcAttempts networkKnowledge
    match spendTurn publicKey maxSpendDbcAttempts result network with
    | .returned result => result
    -- the turn does not retry at the last attempt
    | .retry _ => .error (.dbcSpendRetryAttemptsExceeded maxSpendDbcAttempts publicKey)
  | left + 1, networkKnowledge =>
    let attempts := maxSpendDbcAttempts - (left + 1)
    let (result, network) := elders attempts networkKnowledge
    match spendTurn publicKey attempts result network with
    | .returned result => result
    | .retry networkKnowledge => spendDbcLoop publicKey elders left (some networkKnowledge)

def spendDbc (publicKey : S.PublicKey)
    (elders : Nat → Option (SpendKnowledge S) → Except (SpendDbcError S E) Unit × SectionTree S) :
    Except (SpendDbcError S E) Unit :=
  spendDbcLoop publicKey elders (maxSpendDbcAttempts - 1) none

namespace History

variable {H : History S} {client node : SectionTree S} {key : S.PublicKey} {attempts : Nat}

section

variable (synced : H.Synced client)
include synced

theorem Synced.getSignedByKey_eq_some {sap : S.SignedSap}
    (found : client.getSignedByKey key = some sap) :
    sap = H.sap key ∧ IsLeaf H.dag.parentOf client.sectionsDag.keySet key := by
  obtain ⟨⟨known, signed⟩, first, rfl⟩ := Option.map_eq_some_iff.mp found
  have named : signed.sectionKey = key := by simpa using List.find?_some first
  have listed := ExtTreeMap.mem_toList_iff_getElem?_eq_some.mp (List.mem_of_find?_eq_some first)
  obtain ⟨leaf, seen, rfl, -⟩ := synced.sections.mp listed
  obtain rfl : leaf = key := (synced.sap_key seen.1).symm.trans named
  exact ⟨rfl, seen⟩

theorem Synced.getSignedByKey_leaf
    (seen : IsLeaf H.dag.parentOf client.sectionsDag.keySet key) : client.getSignedByKey key = some (H.sap key) := by
  have listed : (H.prefixOf key, H.sap key) ∈ client.sections.toList :=
    ExtTreeMap.mem_toList_iff_getElem?_eq_some.mpr (synced.sections.mpr ⟨key, seen, rfl, rfl⟩)
  cases found : client.getSignedByKey key with
  | some sap => rw [(synced.getSignedByKey_eq_some found).1]
  | none =>
    rw [SectionTree.getSignedByKey, Option.map_eq_none_iff, List.find?_eq_none] at found
    exact absurd (synced.sap_key seen.1) (by simpa using found _ listed)

theorem Synced.spendTurn_leaf (publicKey : S.PublicKey)
    (early : attempts < maxSpendDbcAttempts) (seen : IsLeaf H.dag.parentOf client.sectionsDag.keySet key) :
    ∃ proofChain, spendTurn publicKey attempts (.error (.spentProofUnknownSectionKey key)) client =
        (.retry (proofChain, H.sap key) : SpendTurn S E) ∧
      SectionsDAG.IsBranch H.dag proofChain H.dag.genesisKey key := by
  obtain ⟨proofChain, last, branched, is, above, leaf⟩ := synced.embedded.tidy.exists_singleBranch seen.1
  -- No other leaf is below a leaf.
  obtain rfl : key = last := synced.embedded.tidy.view.leaf_eq synced.embedded.tidy.ends
    ((synced.embedded.isLeaf_iff H.tidy).mpr seen) leaf.1 above
  refine ⟨proofChain, ?_, synced.genesis ▸ is.of_embedded synced.embedded H.tidy⟩
  simp only [spendTurn, if_neg (Nat.not_le.mpr early), branched, synced.getSignedByKey_leaf seen]

theorem Synced.spendTurn_inner (publicKey : S.PublicKey)
    (early : attempts < maxSpendDbcAttempts) (known : client.sectionsDag.hasKey key = true)
    (inner : ¬ IsLeaf H.dag.parentOf client.sectionsDag.keySet key) :
    spendTurn publicKey attempts (.error (.spentProofUnknownSectionKey key)) client =
      (.returned (.error (.signedSapNotFound key)) : SpendTurn S E) := by
  obtain ⟨proofChain, last, branched, -⟩ := synced.embedded.tidy.exists_singleBranch known
  have missing : client.getSignedByKey key = none := by
    by_contra found
    obtain ⟨sap, found⟩ := Option.ne_none_iff_exists'.mp found
    exact inner (synced.getSignedByKey_eq_some found).2
  simp only [spendTurn, if_neg (Nat.not_le.mpr early), branched, missing]

end

/-- For every key of the client's DAG that is reported as unknown: the retry is sent with a chain and a SAP
that every node with the genesis key of the client takes up, and that make the key known to it, if and only
if the key is a leaf of the client's DAG. Otherwise the call fails for want of a SAP. -/
theorem spendTurn_retries_iff (H : History S) (client : SectionTree S) (synced : H.Synced client)
    (publicKey : S.PublicKey) (attempts : Nat) (early : attempts < maxSpendDbcAttempts)
    (key : S.PublicKey) (known : client.sectionsDag.hasKey key = true) : ((∃ proofChain signedSap,
        spendTurn publicKey attempts (.error (.spentProofUnknownSectionKey key)) client =
          (.retry (proofChain, signedSap) : SpendTurn S E) ∧
        ∀ node, H.Synced node → node.sectionsDag.hasKey key = false →
          (node.updateTheSectionTree ⟨signedSap, proofChain⟩).1 = .ok true ∧
          (node.updateTheSectionTree ⟨signedSap, proofChain⟩).2.sectionsDag.hasKey key = true) ↔
      key ∈ client.sectionsDag.leafKeys) ∧
    (key ∉ client.sectionsDag.leafKeys →
      spendTurn publicKey attempts (.error (.spentProofUnknownSectionKey key)) client =
        (.returned (.error (.signedSapNotFound key)) : SpendTurn S E)) := by
  rw [synced.embedded.mem_leafKeys H.tidy]
  refine ⟨⟨?_, fun leaf => ?_⟩, synced.spendTurn_inner publicKey early known⟩
  · rintro ⟨proofChain, signedSap, retried, -⟩
    by_contra inner
    rw [synced.spendTurn_inner publicKey early known inner] at retried
    cases retried
  · obtain ⟨proofChain, retried, is⟩ := synced.spendTurn_leaf publicKey early leaf
    refine ⟨proofChain, H.sap key, retried, fun node synced' fresh => ?_⟩
    have whole := synced.hasKey_whole known
    obtain ⟨after, updated, -, keys⟩ :
        ∃ after, node.updateTheSectionTree ⟨H.sap key, proofChain⟩ = (.ok true, after) ∧
          H.Synced after ∧ after.sectionsDag.keySet =
            node.sectionsDag.keySet ∪ branch H.dag.parentOf H.dag.genesisKey key :=
      synced'.update_new whole fresh rfl is synced'.hasKey_genesis
    rw [updated]
    refine ⟨rfl, ?_⟩
    have mem : key ∈ after.sectionsDag.keySet := keys ▸ .inr ⟨is.above, .refl⟩
    exact mem

def sampleClient : SectionTree sampleScheme := sampleGenesis.run [sampleFirstHalf, sampleSecondHalf]

theorem sampleClient_synced : sampleHistory.Synced sampleClient :=
  ((synced_new sampleHistory_built).run (by
    simp [sampleFirstHalf_isUpdate, sampleSecondHalf_isUpdate])).1

/-- Key `2` is a leaf: it is sent to a node that knows the genesis section only, which takes it up. -/
theorem spendTurn_retries_sampleClient : (2 : Nat) ∈ sampleClient.sectionsDag.leafKeys ∧
      ∃ proofChain signedSap, spendTurn (7 : Nat) 1 (.error (.spentProofUnknownSectionKey (2 : Nat))) sampleClient =
          (.retry (proofChain, signedSap) : SpendTurn sampleScheme Unit) ∧
        (sampleGenesis.updateTheSectionTree ⟨signedSap, proofChain⟩).1 = .ok true := by
  have leaf : (2 : Nat) ∈ sampleClient.sectionsDag.leafKeys := by decide +kernel
  obtain ⟨proofChain, signedSap, retried, taken⟩ := (spendTurn_retries_iff sampleHistory sampleClient
    sampleClient_synced (7 : Nat) 1 (by decide) (2 : Nat) (by decide +kernel)).1.mpr leaf
  exact ⟨leaf, proofChain, signedSap, retried,
    (taken sampleGenesis (synced_new sampleHistory_built) (by decide +kernel)).1⟩

/-- Key `1` is in the DAG of the client, with a key below it: the call fails at the first retry. -/
theorem spendDbc_sampleClient_inner : sampleClient.sectionsDag.hasKey (1 : Nat) = true ∧
      spendDbc (7 : Nat) (fun _ _ => (.error (.spentProofUnknownSectionKey (1 : Nat)), sampleClient)) =
        (.error (.signedSapNotFound (1 : Nat)) : Except (SpendDbcError sampleScheme Unit) Unit) :=
  ⟨by decide +kernel, rfl⟩

end History

end SafeNetwork
