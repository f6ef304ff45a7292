import SafeNetwork.Node.HandoverChecks
import SafeNetwork.Types.Fees

/-!
# Fees of spends

`messaging/client_msgs.rs`: an elder signs a share of a spent proof when the transaction has an output
that pays its fee. Which output that is, ciphers say that come with the command. Nothing is kept of the
outputs that were accepted, so the commands for several inputs of a transaction can point at the same one.
Fees are paid one for each input exactly when their ciphers hold different keys.
-/

namespace SafeNetwork

open Std

structure SpentProofContent (PublicKey DbcHash DbcReason BlindedAmount : Type) where
  publicKey : PublicKey
  transactionHash : DbcHash
  reason : DbcReason
  blindedAmount : BlindedAmount

structure SpentProof (PublicKey Signature DbcHash DbcReason BlindedAmount : Type) where
  content : SpentProofContent PublicKey DbcHash DbcReason BlindedAmount
  spentbookPubKey : PublicKey
  spentbookSig : Signature

/-- What spends use of `sn_dbc`, and the fee that is just enough. -/
structure SpendScheme extends DbcScheme where
  DbcTransaction : Type
  DbcReason : Type
  DbcHash : Type
  SecretKeyShare : Type
  SignatureShare : Type
  /-- The outputs of a transaction, with their keys and blinded amounts. -/
  outputs : DbcTransaction → List (PublicKey × BlindedAmount)
  transactionHash : DbcTransaction → DbcHash
  /-- `DbcTransaction::verify` with the blinded amounts of the inputs. -/
  verifyTransaction : DbcTransaction → List BlindedAmount → Except DbcError Unit
  contentHash : SpentProofContent PublicKey DbcHash DbcReason BlindedAmount → List UInt8
  /-- `get_blinded_amounts_from_transaction` — the inputs with their amounts. -/
  blindedAmounts : DbcTransaction →
    List (SpentProof PublicKey Signature DbcHash DbcReason BlindedAmount) → List DbcTransaction →
      Except DbcError (List (PublicKey × BlindedAmount))
  signShare : SecretKeyShare → List UInt8 → SignatureShare
  /-- The number of nanos that are ninety percent of a cost, in floating point. -/
  ninetyPercent : UInt64 → UInt64
  errorText : DbcError → String
  keyText : PublicKey → String

variable {S : SpendScheme}

abbrev SpendScheme.Content (S : SpendScheme) : Type :=
  SpentProofContent S.PublicKey S.DbcHash S.DbcReason S.BlindedAmount

abbrev SpendScheme.Proof (S : SpendScheme) : Type :=
  SpentProof S.PublicKey S.Signature S.DbcHash S.DbcReason S.BlindedAmount

structure SpentProofShare (S : SpendScheme) where
  content : S.Content
  spentbookPks : S.PublicKeySet
  spentbookSigShare : Nat × S.SignatureShare

structure SectionKeyShare (S : SpendScheme) where
  publicKeySet : S.PublicKeySet
  index : Nat
  secretKeyShare : S.SecretKeyShare

/-- The part of `NodeContext` that spends use. -/
structure SpendContext (S : SpendScheme) where
  name : XorName
  currentFee : Token
  rewardSecretKey : S.SecretKey
  networkKnowledge : NetworkKnowledge S.sections
  sectionKeysProvider : List (SectionKeyShare S)

/-- `SpentbookCmd::Spend`. -/
structure SpendCmd (S : SpendScheme) where
  publicKey : S.PublicKey
  tx : S.DbcTransaction
  reason : S.DbcReason
  spentProofs : List S.Proof
  spentTransactions : List S.DbcTransaction
  feeCiphers : ExtTreeMap XorName (FeeCiphers S.toDbcScheme)

inductive SpendError (S : SpendScheme) where
  | missingFee
  | invalidFeeBlindedAmount
  | feeTooLow (paid required : Token)
  | feeError (error : FeesError S.toDbcScheme)
  /-- A spent proof is not signed, the transaction not valid, or the amount not found. -/
  | spentbookError (text : String)
  | spentProofUnknownSectionKey (key : S.PublicKey)
  | dbcError (error : S.DbcError)
  | missingSecretKeyShare (key : S.PublicKey)

def verifyFee (storeCost : Token) (rewardSecretKey : S.SecretKey) (tx : S.DbcTransaction)
    (ourName : XorName) (feeCiphers : ExtTreeMap XorName (FeeCiphers S.toDbcScheme)) :
    Except Panic (Except (SpendError S) Unit) :=
  match feeCiphers[ourName]? with
  | none => .ok (.error .missingFee)
  | some feeCiphers =>
    match feeCiphers.decrypt rewardSecretKey with
    | .error panic => .error panic
    | .ok (.error error) => .ok (.error (.feeError error))
    | .ok (.ok (derivedKey, revealedAmount)) =>
      match (S.outputs tx).find? (·.1 == derivedKey) with
      | none => .ok (.error .missingFee)
      | some (_, outputAmount) =>
        if S.blindedAmount revealedAmount ≠ outputAmount then .ok (.error .invalidFeeBlindedAmount)
        else
          let paid := S.value revealedAmount
          let required := S.ninetyPercent storeCost.nano
          if paid < required then .ok (.error (.feeTooLow ⟨paid⟩ ⟨required⟩)) else .ok (.ok ())

/-- The loop of `MyNode::verify_spent_proofs` over the proofs. -/
def verifySpentProofSigs :
    List S.Proof → ExtTreeSet S.PublicKey → Except (SpendError S) (ExtTreeSet S.PublicKey)
  | [], spentProofsKeys => .ok spentProofsKeys
  | proof :: rest, spentProofsKeys =>
    if !S.verify proof.spentbookPubKey proof.spentbookSig (S.contentHash proof.content) then
      let key := S.keyText proof.spentbookPubKey
      .error (.spentbookError s!"Spent proof signature {key} is invalid")
    else verifySpentProofSigs rest (spentProofsKeys.insert proof.spentbookPubKey)

def verifySpentProofs (spentProofs : List S.Proof) (networkKnowledge : NetworkKnowledge S.sections) :
    Except (SpendError S) Unit :=
  match verifySpentProofSigs spentProofs ∅ with
  | .error error => .error error
  | .ok spentProofsKeys =>
    match spentProofsKeys.toList.find? fun key => !networkKnowledge.sectionTree.sectionsDag.hasKey key with
    | some unknown => .error (.spentProofUnknownSectionKey unknown)
    | none => .ok ()

/-- `build_spent_proof_share`, with `SectionKeysProvider::sign_with`. -/
def buildSpentProofShare (publicKey : S.PublicKey) (tx : S.DbcTransaction) (reason : S.DbcReason)
    (sap : S.sections.Sap) (keyShares : List (SectionKeyShare S)) (blindedAmount : S.BlindedAmount) :
    Except (SpendError S) (SpentProofShare S) :=
  let content : S.Content := ⟨publicKey, S.transactionHash tx, reason, blindedAmount⟩
  let sectionKey := S.publicKey sap.publicKeySet
  match keyShares.find? fun share => S.publicKey share.publicKeySet == sectionKey with
  | none => .error (.missingSecretKeyShare sectionKey)
  | some keyShare =>
    .ok ⟨content, sap.publicKeySet, keyShare.index, S.signShare keyShare.secretKeyShare (S.contentHash content)⟩

def genSpentProofShare (cmd : SpendCmd S) (context : SpendContext S) :
    Except Panic (Except (SpendError S) (SpentProofShare S)) :=
  match verifyFee context.currentFee context.rewardSecretKey cmd.tx context.name cmd.feeCiphers with
  | .error panic => .error panic
  | .ok (.error error) => .ok (.error error)
  | .ok (.ok ()) =>
    match verifySpentProofs cmd.spentProofs context.networkKnowledge with
    | .error error => .ok (.error error)
    | .ok () =>
      match S.blindedAmounts cmd.tx cmd.spentProofs cmd.spentTransactions with
      | .error error => .ok (.error (.dbcError error))
      | .ok blindedAmountsInfo =>
        match S.verifyTransaction cmd.tx (blindedAmountsInfo.map (·.2)) with
        | .error error => .ok (.error (.spentbookError (S.errorText error)))
        | .ok () =>
          match blindedAmountsInfo.find? (·.1 == cmd.publicKey) with
          | none =>
            let key := S.keyText cmd.publicKey
            .ok (.error (.spentbookError s!"There are no amounts for the given public key {key}"))
          | some (_, blindedAmount) =>
            .ok (buildSpentProofShare cmd.publicKey cmd.tx cmd.reason
              context.networkKnowledge.signedSap.value context.sectionKeysProvider blindedAmount)

def validateSpentbookCmd (cmd : SpendCmd S) (context : SpendContext S) :
    Except Panic (Except (SpendError S) (SpentProofShare S)) := genSpentProofShare cmd context

/-! ## The output that is accepted -/

/-- A command, and the context in which an elder handles it. -/
structure Spend (S : SpendScheme) where
  cmd : SpendCmd S
  context : SpendContext S

namespace Spend

def Signed (spend : Spend S) : Prop :=
  ∃ share, validateSpentbookCmd spend.cmd spend.context = .ok (.ok share)

def feeKey (spend : Spend S) : Option (S.PublicKey × S.RevealedAmount) :=
  match spend.cmd.feeCiphers[spend.context.name]? with
  | none => none
  | some ciphers =>
    match ciphers.decrypt spend.context.rewardSecretKey with
    | .ok (.ok fee) => some fee
    | _ => none

/-- The position of the output that `verify_fee` looks at. -/
def feeOutput (spend : Spend S) : Option Nat :=
  match spend.feeKey with
  | none => none
  | some (derivedKey, _) => (S.outputs spend.cmd.tx).findIdx? (·.1 == derivedKey)

/-- The output at a position pays the elder: the key and the amount are those of the ciphers, and the
amount is enough. -/
def PaidBy (spend : Spend S) (position : Nat) : Prop :=
  ∃ key amount, spend.feeKey = some (key, amount) ∧
    (S.outputs spend.cmd.tx)[position]? = some (key, S.blindedAmount amount) ∧
    S.ninetyPercent spend.context.currentFee.nano ≤ S.value amount

theorem paidBy_of_verifyFee {spend : Spend S}
    (verified : verifyFee spend.context.currentFee spend.context.rewardSecretKey spend.cmd.tx
      spend.context.name spend.cmd.feeCiphers = .ok (.ok ())) :
    ∃ position, spend.feeOutput = some position ∧ spend.PaidBy position := by
  rw [verifyFee] at verified
  split at verified
  · cases verified
  · rename_i ciphers found
    split at verified
    · cases verified
    · cases Except.ok.inj verified
    · rename_i derivedKey amount decrypts
      have fee : spend.feeKey = some (derivedKey, amount) := by
        simp only [feeKey, found, decrypts]
      split at verified
      · cases Except.ok.inj verified
      · rename_i key outputAmount output
        dsimp only at verified
        split_ifs at verified with blinded low
        · cases Except.ok.inj verified
        · cases Except.ok.inj verified
        · obtain ⟨same, position, inside, here, earlier⟩ := List.find?_eq_some_iff_getElem.mp output
          obtain rfl : key = derivedKey := beq_iff_eq.mp same
          refine ⟨position, ?_, key, amount, fee, ?_, UInt64.not_lt.mp low⟩
          · simp only [feeOutput, fee]
            refine List.findIdx?_eq_some_iff_getElem.mpr ⟨inside, by rw [here]; exact same, ?_⟩
            intro before order
            simpa using earlier before order
          · rw [List.getElem?_eq_getElem inside, here, not_not.mp blinded]

theorem Signed.paidBy {spend : Spend S} (signed : spend.Signed) :
    ∃ position, spend.feeOutput = some position ∧ spend.PaidBy position := by
  obtain ⟨share, validated⟩ := signed
  rw [validateSpentbookCmd, genSpentProofShare] at validated
  split at validated
  · cases validated
  · cases Except.ok.inj validated
  · rename_i verified
    exact paidBy_of_verifyFee verified

variable {one other : Spend S}

/-- Two signed commands for one transaction are paid by one output exactly when their ciphers hold one
key. -/
theorem Signed.feeOutput_eq_iff (signed : one.Signed) (otherSigned : other.Signed)
    (same : one.cmd.tx = other.cmd.tx) :
    one.feeOutput = other.feeOutput ↔ one.feeKey.map (·.1) = other.feeKey.map (·.1) := by
  obtain ⟨position, output, key, amount, fee, here, -⟩ := signed.paidBy
  obtain ⟨position', output', key', amount', fee', here', -⟩ := otherSigned.paidBy
  constructor
  · intro sameOutput
    obtain rfl : position = position' := Option.some.inj (output.symm.trans (sameOutput.trans output'))
    rw [same] at here
    obtain ⟨rfl, -⟩ := Prod.mk.inj (Option.some.inj (here.symm.trans here'))
    rw [fee, fee']
    rfl
  · intro sameKey
    rw [fee, fee'] at sameKey
    obtain rfl : key = key' := Option.some.inj sameKey
    rw [feeOutput, feeOutput, fee, fee', same]

/-- The commands for different keys that are signed for one transaction hold different keys for their
fees. -/
def KeysDiffer (spends : List (Spend S)) : Prop :=
  ∀ one ∈ spends, ∀ other ∈ spends, one.Signed → other.Signed →
    one.cmd.publicKey ≠ other.cmd.publicKey → one.cmd.tx = other.cmd.tx →
      one.feeKey.map (·.1) ≠ other.feeKey.map (·.1)

/-- The outputs accepted as fees are different ones for different spent keys exactly when the commands
hold different keys for their fees, and then a transaction has as many outputs that pay the elder as the
elder signs inputs of it. -/
theorem fees_distinct_iff (spends : List (Spend S)) : ((∀ one ∈ spends, ∀ other ∈ spends, one.Signed → other.Signed →
        one.cmd.publicKey ≠ other.cmd.publicKey →
          (one.cmd.tx, one.feeOutput) ≠ (other.cmd.tx, other.feeOutput)) ↔ KeysDiffer spends) ∧
      (KeysDiffer spends → ∀ tx, ∀ signed ⊆ spends,
        (∀ spend ∈ signed, spend.Signed ∧ spend.cmd.tx = tx) → (signed.map (·.cmd.publicKey)).Nodup →
          ∃ positions : List Nat, positions.Nodup ∧ List.Forall₂ PaidBy signed positions) := by
  constructor
  · constructor
    · intro distinct one mem other mem' signed otherSigned apart same sameKey
      have sameOutput := (signed.feeOutput_eq_iff otherSigned same).mpr sameKey
      exact distinct one mem other mem' signed otherSigned apart (Prod.ext same sameOutput)
    · intro differ one mem other mem' signed otherSigned apart sameOutput
      obtain ⟨same, sameOutput⟩ := Prod.mk.inj sameOutput
      exact differ one mem other mem' signed otherSigned apart same
        ((signed.feeOutput_eq_iff otherSigned same).mp sameOutput)
  · intro differ tx signed among all keys
    refine ⟨signed.map fun spend => spend.feeOutput.getD 0, ?_, ?_⟩
    · rw [List.Nodup, List.pairwise_map] at keys ⊢
      refine keys.imp_of_mem fun {one other} mem mem' apart sameOutput => ?_
      obtain ⟨oneSigned, oneTx⟩ := all one mem
      obtain ⟨otherSigned, otherTx⟩ := all other mem'
      have same := oneTx.trans otherTx.symm
      obtain ⟨position, output, -⟩ := oneSigned.paidBy
      obtain ⟨position', output', -⟩ := otherSigned.paidBy
      rw [output, output'] at sameOutput
      refine differ one (among mem) other (among mem') oneSigned otherSigned apart same
        ((oneSigned.feeOutput_eq_iff otherSigned same).mp ?_)
      rw [output, output']
      exact congrArg some sameOutput
    · rw [List.forall₂_map_right_iff, List.forall₂_same]
      intro spend mem
      obtain ⟨position, output, paid⟩ := (all spend mem).1.paidBy
      rwa [output]

end Spend

/-! ## Sample spends -/

abbrev sampleSpends : SpendScheme where
  toDbcScheme := sampleDbcs
  DbcTransaction := List (Nat × UInt64) × List (Nat × UInt64)
  DbcReason := Unit
  DbcHash := Unit
  SecretKeyShare := Unit
  SignatureShare := Unit
  outputs tx := tx.2
  transactionHash _ := ()
  verifyTransaction tx amounts :=
    if amounts.sum = (tx.2.map (·.2)).sum then .ok () else .error ()
  contentHash _ := []
  blindedAmounts tx _ _ := .ok tx.1
  signShare _ _ := ()
  ninetyPercent cost := cost * 9 / 10
  errorText _ := "inconsistent transaction"
  keyText key := toString key

namespace Spend

def sampleContext : SpendContext sampleSpends where
  name := sampleNodeName [true]
  currentFee := ⟨2⟩
  rewardSecretKey := (5 : Nat)
  networkKnowledge := NetworkKnowledge.sampleSection [] []
  sectionKeysProvider := [⟨(0 : Nat), 1, ()⟩]

def sampleCiphers (index : UInt8) : FeeCiphers sampleDbcs :=
  ⟨((5 : Nat) + index.toNat, [0, 0]), ((5 : Nat), List.replicate 32 index)⟩

/-- The command to spend a key in a transaction of two inputs with ten nanos each and some outputs, with
the fee paid to the key at an index. -/
def sampleSpend (key : Nat) (index : UInt8) (outputs : List (Nat × UInt64)) : Spend sampleSpends where
  cmd :=
    { publicKey := key
      tx := ([((1 : Nat), (10 : UInt64)), (2, 10)], outputs)
      reason := ()
      spentProofs := []
      spentTransactions := []
      feeCiphers := .ofList [(sampleNodeName [true], sampleCiphers index)] }
  context := sampleContext

def sampleSigned (spend : Spend sampleSpends) : Bool :=
  match validateSpentbookCmd spend.cmd spend.context with
  | .ok (.ok _) => true
  | _ => false

theorem signed_of_sampleSigned {spend : Spend sampleSpends} (signed : sampleSigned spend = true) : spend.Signed := by
  rw [sampleSigned] at signed
  split at signed
  · rename_i share validated
    exact ⟨share, validated⟩
  · cases signed

def sampleOutputs : List (Nat × UInt64) := [(6, 2), (7, 2), (9, 16)]

theorem sampleSpend_keysDiffer : KeysDiffer [sampleSpend 1 1 sampleOutputs, sampleSpend 2 2 sampleOutputs] := by
  have apart : (sampleSpend 1 1 sampleOutputs).feeKey.map (·.1) ≠
      (sampleSpend 2 2 sampleOutputs).feeKey.map (·.1) := by decide +kernel
  intro first mem second mem' _ _ keys _
  simp only [List.mem_cons, List.not_mem_nil, or_false] at mem mem'
  rcases mem with rfl | rfl <;> rcases mem' with rfl | rfl
  · exact absurd rfl keys
  · exact apart
  · exact apart.symm
  · exact absurd rfl keys

theorem fees_distinct_sampleSpend : (sampleSpend 1 1 sampleOutputs).Signed ∧ (sampleSpend 2 2 sampleOutputs).Signed ∧
      ∃ positions : List Nat, positions.Nodup ∧
        List.Forall₂ PaidBy [sampleSpend 1 1 sampleOutputs, sampleSpend 2 2 sampleOutputs] positions := by
  have signed : (sampleSpend 1 1 sampleOutputs).Signed := signed_of_sampleSigned (by decide +kernel)
  have otherSigned : (sampleSpend 2 2 sampleOutputs).Signed :=
    signed_of_sampleSigned (by decide +kernel)
  refine ⟨signed, otherSigned, (fees_distinct_iff _).2 sampleSpend_keysDiffer
    (sampleSpend 1 1 sampleOutputs).cmd.tx _ (List.Subset.refl _) ?_ (by decide +kernel)⟩
  intro spend mem
  simp only [List.mem_cons, List.not_mem_nil, or_false] at mem
  rcases mem with rfl | rfl
  · exact ⟨signed, rfl⟩
  · exact ⟨otherSigned, rfl⟩

/-- Both inputs are signed for one output, with the same ciphers, and the transaction has no other output
for the elder. -/
theorem one_fee_for_two_inputs :
    (sampleSpend 1 1 [(6, 2), (9, 18)]).Signed ∧ (sampleSpend 2 1 [(6, 2), (9, 18)]).Signed ∧
      (sampleSpend 1 1 [(6, 2), (9, 18)]).feeOutput = some 0 ∧
      (sampleSpend 2 1 [(6, 2), (9, 18)]).feeOutput = some 0 :=
  ⟨signed_of_sampleSigned (by decide +kernel), signed_of_sampleSigned (by decide +kernel),
    by decide +kernel, by decide +kernel⟩

end Spend

end SafeNetwork
