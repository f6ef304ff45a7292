import SafeNetwork.Library.SoloRounds
import SafeNetwork.Node.HandoverChecks

/-!
# Handover consensus

`node/handover/handover_consensus.rs`: the elders of a section vote on the SAP of the next one. A round
that ends with the empty set has failed. It is archived under its generation, and a new round begins. A
round that ends otherwise is the last: its smallest candidate is the outcome of the handover.
-/

namespace SafeNetwork

open Std Consensus NetworkKnowledge

/-- `sn_consensus::Decision` on SAP candidates. -/
structure HandoverDecision (N : NodeScheme) where
  generation : Nat
  /-- The candidates, each with the signature of the section, in the order of the candidates. -/
  proposals : List (SapCandidate N × N.Signature)

/-- The rounds in which elders agree on SAP candidates. -/
abbrev HandoverRounds (N : NodeScheme) : Type 1 := Rounds (SapCandidate N) (HandoverDecision N)

/-- What a handover uses of the crates, beyond the nodes: orders and rounds of consensus. -/
structure HandoverScheme extends NodeScheme where
  [decidableEqPublicKeySet : DecidableEq PublicKeySet]
  [ordPublicKeySet : Ord PublicKeySet]
  [transOrdPublicKeySet : TransOrd PublicKeySet]
  [lawfulEqOrdPublicKeySet : LawfulEqOrd PublicKeySet]
  [ordSignature : Ord Signature]
  [transOrdSignature : TransOrd Signature]
  [lawfulEqOrdSignature : LawfulEqOrd Signature]
  rounds : HandoverRounds toNodeScheme
  keySet : rounds.Elders → PublicKeySet

attribute [instance] HandoverScheme.decidableEqPublicKeySet HandoverScheme.ordPublicKeySet
  HandoverScheme.transOrdPublicKeySet HandoverScheme.lawfulEqOrdPublicKeySet
  HandoverScheme.ordSignature HandoverScheme.transOrdSignature HandoverScheme.lawfulEqOrdSignature

/-- `handover::Error`. -/
inductive HandoverError (ConsensusError : Type) where
  | faultyProposal
  /-- Handover generation is behind received vote, we need anti-entropy. -/
  | requestAntiEntropy
  /-- Handover history is corrupted: no history for a generation when we are at another. -/
  | corruptedHandoverHistory (voteGen gen : Nat)
  | consensusFault (error : ConsensusError)

/-- `SapCandidate::public_key_sets`, with repetitions. -/
def SapCandidate.publicKeySets {N : NodeScheme} : SapCandidate N → List N.PublicKeySet
  | .elderHandover sap => [sap.value.publicKeySet]
  | .sectionSplit sap1 sap2 => [sap1.value.publicKeySet, sap2.value.publicKeySet]

structure Handover (X : HandoverScheme) where
  consensus : X.rounds.Round
  failedConsensusRounds : ExtTreeMap Nat (X.rounds.Round × HandoverDecision X.toNodeScheme)
  gen : Nat

namespace Handover

variable {X : HandoverScheme}

abbrev Result (X : HandoverScheme) (α : Type) : Type := Except (HandoverError X.rounds.Error) α

/-- `Handover::from`. -/
def fromElders (config : X.rounds.Config) : Handover X := ⟨X.rounds.start config, ∅, 0⟩

def sectionKeySet (self : Handover X) : X.PublicKeySet :=
  X.keySet (X.rounds.elders (X.rounds.config self.consensus))

def castVote (self : Handover X) (signedVote : X.rounds.SignedVote) :
    Result X X.rounds.SignedVote × Handover X :=
  match X.rounds.castVote self.consensus signedVote with
  | (.ok vote, consensus) => (.ok vote, { self with consensus })
  | (.error error, consensus) => (.error (.consensusFault error), { self with consensus })

def propose (self : Handover X) (proposal : SapCandidate X.toNodeScheme) :
    Result X X.rounds.SignedVote × Handover X :=
  -- Do not cast a vote equals to self sap; a split may contain the existing elders.
  if self.sectionKeySet ∈ proposal.publicKeySets ∧ proposal.publicKeySets.dedup.length = 1 then
    (.error .faultyProposal, self)
  else
    match X.rounds.signProposal self.consensus self.gen proposal with
    | .error error => (.error (.consensusFault error), self)
    | .ok signedVote =>
      if X.rounds.faultless self.consensus signedVote then self.castVote signedVote
      else (.error .faultyProposal, self)

def handleEmptySetDecision (self : Handover X) : Handover X :=
  match X.rounds.decision self.consensus with
  | some decision =>
    if decision.proposals.isEmpty then
      { consensus := X.rounds.start (X.rounds.config self.consensus)
        failedConsensusRounds := self.failedConsensusRounds.insert self.gen (self.consensus, decision)
        gen := self.gen + 1 }
    else self
  | none => self

def answer : Except X.rounds.Error (VoteResponse X.rounds.SignedVote) →
    Result X (VoteResponse X.rounds.SignedVote)
  | .ok voteResponse => .ok voteResponse
  | .error error => .error (.consensusFault error)

def handleOutdatedSignedVote (self : Handover X) (signedVote : X.rounds.SignedVote) :
    Result X (VoteResponse X.rounds.SignedVote) × Handover X :=
  let voteGen := X.rounds.gen signedVote
  match self.failedConsensusRounds[voteGen]? with
  | some (consensus, _) =>
    let (result, consensus) := X.rounds.handleSignedVote consensus signedVote
    (answer result, { self with
      failedConsensusRounds := self.failedConsensusRounds.modify voteGen fun entry =>
        (consensus, entry.2) })
  | none => (.error (.corruptedHandoverHistory voteGen self.gen), self)

def handleSignedVote (self : Handover X) (signedVote : X.rounds.SignedVote) :
    Result X (VoteResponse X.rounds.SignedVote) × Handover X :=
  match compare (X.rounds.gen signedVote) self.gen with
  | .lt => self.handleOutdatedSignedVote signedVote
  | .gt => (.error .requestAntiEntropy, self)
  | .eq =>
    let (result, consensus) := X.rounds.handleSignedVote self.consensus signedVote
    (answer result, { self with consensus })

/-- `Handover::consensus_value` — the smallest of the candidates decided on. -/
def consensusValue (self : Handover X) : Option (SapCandidate X.toNodeScheme) :=
  match X.rounds.decision self.consensus with
  | some decision => decision.proposals.head?.map (·.1)
  | none => none

/-! ## Calls -/

inductive Call (X : HandoverScheme) where
  | propose (proposal : SapCandidate X.toNodeScheme)
  | handleSignedVote (signedVote : X.rounds.SignedVote)
  | handleEmptySetDecision

def call (self : Handover X) : Call X → Handover X
  | .propose proposal => (self.propose proposal).2
  | .handleSignedVote signedVote => (self.handleSignedVote signedVote).2
  | .handleEmptySetDecision => self.handleEmptySetDecision

inductive Called (before : Handover X) : Handover X → Prop where
  | unchanged : Called before before
  | outdated {gen : Nat} {round : X.rounds.Round} {decision : HandoverDecision X.toNodeScheme}
    (vote : X.rounds.SignedVote) (found : before.failedConsensusRounds[gen]? = some (round, decision)) :
    Called before { before with
      failedConsensusRounds := before.failedConsensusRounds.modify gen fun entry =>
        ((X.rounds.handleSignedVote round vote).2, entry.2) }
  | handled (vote : X.rounds.SignedVote) : Called before { before with
      consensus := (X.rounds.handleSignedVote before.consensus vote).2 }
  | cast (vote : X.rounds.SignedVote) : Called before { before with
      consensus := (X.rounds.castVote before.consensus vote).2 }
  | failed {decision : HandoverDecision X.toNodeScheme}
    (decides : X.rounds.decision before.consensus = some decision) (empty : decision.proposals = []) :
    Called before ⟨X.rounds.start (X.rounds.config before.consensus),
      before.failedConsensusRounds.insert before.gen (before.consensus, decision), before.gen + 1⟩

theorem called (before : Handover X) (request : Call X) : Called before (before.call request) := by
  cases request with
  | propose proposal =>
    rw [call, propose]
    split
    · exact .unchanged
    · cases X.rounds.signProposal before.consensus before.gen proposal with
      | error => exact .unchanged
      | ok vote =>
        dsimp only
        split
        · have casts : Called before
              { before with consensus := (X.rounds.castVote before.consensus vote).2 } := .cast vote
          rw [castVote]
          rcases result : X.rounds.castVote before.consensus vote with ⟨_ | _, round⟩
          · rwa [result] at casts
          · rwa [result] at casts
        · exact .unchanged
  | handleSignedVote vote =>
    rw [call, handleSignedVote]
    split
    · rw [handleOutdatedSignedVote]
      cases found : before.failedConsensusRounds[X.rounds.gen vote]? with
      | none => exact .unchanged
      | some entry => exact .outdated vote found
    · exact .unchanged
    · exact .handled vote
  | handleEmptySetDecision =>
    rw [call, handleEmptySetDecision]
    cases decides : X.rounds.decision before.consensus with
    | none => exact .unchanged
    | some decision =>
      dsimp only
      split
      · rename_i empty
        exact .failed decides (List.isEmpty_iff.mp empty)
      · exact .unchanged

/-! ## Failed rounds -/

variable {before : Handover X}

/-- The generations before the current one have failed, each with an empty decision. -/
structure Archived (after : Handover X) : Prop where
  numbered : ∀ number, number ∈ after.failedConsensusRounds ↔ number < after.gen
  empty : ∀ (number : Nat) (round : X.rounds.Round) (decision : HandoverDecision X.toNodeScheme),
    after.failedConsensusRounds[number]? = some (round, decision) →
      decision.proposals = [] ∧ X.rounds.decision round = some decision

theorem Archived.start (config : X.rounds.Config) : Archived (fromElders config) :=
  ⟨by simp [fromElders], by simp [fromElders]⟩

theorem Archived.call (keepsDecision : KeepsDecision X.rounds) (archived : Archived before)
    (request : Call X) : Archived (before.call request) := by
  have outcome := called before request
  generalize before.call request = after at outcome
  cases outcome with
  | unchanged => exact archived
  | @outdated gen round decision vote found =>
    refine ⟨fun number => by rw [ExtTreeMap.mem_modify, archived.numbered], ?_⟩
    intro number other decided present
    rw [ExtTreeMap.getElem?_modify] at present
    split at present
    · rename_i same
      obtain rfl := Std.compare_eq_iff_eq.mp same
      rw [found] at present
      obtain ⟨rfl, rfl⟩ := Prod.mk.inj (Option.some.inj present)
      obtain ⟨empty, decides⟩ := archived.empty _ round decision found
      exact ⟨empty, keepsDecision _ _ _ decides⟩
    · exact archived.empty number other decided present
  | handled vote => exact ⟨archived.numbered, archived.empty⟩
  | cast vote => exact ⟨archived.numbered, archived.empty⟩
  | @failed decision decides empty =>
    refine ⟨fun number => ?_, ?_⟩
    · rw [ExtTreeMap.mem_insert, archived.numbered, Std.compare_eq_iff_eq]
      dsimp only
      omega
    · intro number other decided present
      rw [ExtTreeMap.getElem?_insert] at present
      split at present
      · obtain ⟨rfl, rfl⟩ := Prod.mk.inj (Option.some.inj present)
        exact ⟨empty, decides⟩
      · exact archived.empty number other decided present

theorem Archived.not_corrupted (archived : Archived before) (vote : X.rounds.SignedVote) (voteGen gen : Nat) :
    (before.handleSignedVote vote).1 ≠ .error (.corruptedHandoverHistory voteGen gen) := by
  have answered : ∀ result : Except X.rounds.Error (VoteResponse X.rounds.SignedVote),
      answer (X := X) result ≠ .error (.corruptedHandoverHistory voteGen gen) := by
    intro result
    cases result <;> simp [answer]
  rw [handleSignedVote]
  split
  · rename_i earlier
    have present := (archived.numbered _).mpr (Nat.compare_eq_lt.mp earlier)
    rw [ExtTreeMap.mem_iff_isSome_getElem?, Option.isSome_iff_exists] at present
    obtain ⟨entry, found⟩ := present
    simp only [handleOutdatedSignedVote, found]
    exact answered _
  · simp
  · exact answered _

/-! ## The outcome -/

def DecidedOn (after : Handover X) (decision : HandoverDecision X.toNodeScheme) : Prop :=
  X.rounds.decision after.consensus = some decision ∧ decision.proposals ≠ []

theorem DecidedOn.call (keepsDecision : KeepsDecision X.rounds)
    (castKeepsDecision : CastKeepsDecision X.rounds) {decision : HandoverDecision X.toNodeScheme}
    (decided : before.DecidedOn decision) (request : Call X) :
    (before.call request).DecidedOn decision ∧ (before.call request).gen = before.gen := by
  obtain ⟨decides, chosen⟩ := decided
  have outcome := called before request
  generalize before.call request = after at outcome
  cases outcome with
  | unchanged => exact ⟨⟨decides, chosen⟩, rfl⟩
  | outdated vote found => exact ⟨⟨decides, chosen⟩, rfl⟩
  | handled vote => exact ⟨⟨keepsDecision _ _ _ decides, chosen⟩, rfl⟩
  | cast vote => exact ⟨⟨castKeepsDecision _ _ _ decides, chosen⟩, rfl⟩
  | failed other empty =>
    obtain rfl := Option.some.inj (decides.symm.trans other)
    exact absurd empty chosen

/-- For any calls on a new handover: the failed rounds are those of the generations before the current
one and have decided on the empty set, the history is never found corrupted, and once the round in
progress has decided on some candidates, no further calls change the generation or the outcome. -/
theorem rounds_archived (keepsDecision : KeepsDecision X.rounds)
    (castKeepsDecision : CastKeepsDecision X.rounds) (config : X.rounds.Config) (calls : List (Call X)) :
    let after := Runs.run call (fromElders config) calls
    (∀ number, number ∈ after.failedConsensusRounds ↔ number < after.gen) ∧
      (∀ (number : Nat) (round : X.rounds.Round) (decision : HandoverDecision X.toNodeScheme),
        after.failedConsensusRounds[number]? = some (round, decision) →
          decision.proposals = [] ∧ X.rounds.decision round = some decision) ∧
      (∀ vote voteGen gen,
        (after.handleSignedVote vote).1 ≠ .error (.corruptedHandoverHistory voteGen gen)) ∧
      ∀ decision, X.rounds.decision after.consensus = some decision → decision.proposals ≠ [] →
        ∀ later, (Runs.run call after later).gen = after.gen ∧
          (Runs.run call after later).consensusValue = after.consensusValue := by
  intro after
  have archived : Archived after := Runs.run_induction (Archived.start config)
    fun _ archived request _ => archived.call keepsDecision request
  refine ⟨archived.numbered, archived.empty, archived.not_corrupted, ?_⟩
  intro decision decides chosen later
  obtain ⟨⟨still, -⟩, gen⟩ := Runs.run_induction
    (motive := fun final : Handover X => final.DecidedOn decision ∧ final.gen = after.gen)
    (show after.DecidedOn decision ∧ after.gen = after.gen from ⟨⟨decides, chosen⟩, rfl⟩)
    fun final kept request (_ : request ∈ later) => by
      obtain ⟨decided, same⟩ := kept.1.call keepsDecision castKeepsDecision request
      exact ⟨decided, same.trans kept.2⟩
  exact ⟨gen, by rw [consensusValue, consensusValue, still, decides]⟩

/-! ## A sample handover -/

def sampleHandoverDecision (key generation : Nat) (candidates : List (SapCandidate sampleNodeScheme)) :
    HandoverDecision sampleNodeScheme :=
  ⟨generation, candidates.map (·, sampleSig key 0)⟩

abbrev sampleSignatureOrd : Ord (Nat × Nat) :=
  ⟨compareLex (compareOn Prod.fst) (compareOn Prod.snd)⟩

theorem sampleSignature_transOrd : @TransOrd (Nat × Nat) sampleSignatureOrd :=
  inferInstanceAs (TransCmp (compareLex (compareOn Prod.fst) (compareOn Prod.snd)))

theorem sampleSignature_lawfulEqOrd : @LawfulEqOrd (Nat × Nat) sampleSignatureOrd := by
  have := sampleSignature_transOrd
  refine @LawfulEqCmp.mk _ _ inferInstance ?_
  rintro ⟨key, key'⟩ ⟨other, other'⟩ same
  obtain ⟨first, second⟩ := compareLex_eq_eq.mp same
  obtain rfl : key = other := Std.compare_eq_iff_eq.mp first
  obtain rfl : key' = other' := Std.compare_eq_iff_eq.mp second
  rfl

abbrev sampleHandovers : HandoverScheme where
  toNodeScheme := sampleNodeScheme
  ordSignature := sampleSignatureOrd
  transOrdSignature := sampleSignature_transOrd
  lawfulEqOrdSignature := sampleSignature_lawfulEqOrd
  rounds := soloRounds sampleHandoverDecision
  keySet key := key

def sampleRetry (candidate : SapCandidate sampleNodeScheme) : List (Call sampleHandovers) :=
  [.handleSignedVote ⟨0, 0, []⟩, .handleEmptySetDecision, .handleSignedVote ⟨0, 1, [candidate]⟩]

def sampleRetryCandidate : SapCandidate sampleNodeScheme :=
  .elderHandover (sampleNewSap (NodeScheme.sessionOf ∅ default ∅ 1 0) 1)

def sampleRetried : Handover sampleHandovers :=
  Runs.run call (fromElders (0 : Nat)) (sampleRetry sampleRetryCandidate)

theorem rounds_archived_sampleRetry :
    sampleRetried.gen = 1 ∧ sampleRetried.consensusValue = some sampleRetryCandidate ∧
      ∀ later, (Runs.run call sampleRetried later).consensusValue = some sampleRetryCandidate := by
  obtain ⟨-, -, -, stays⟩ := rounds_archived (X := sampleHandovers) soloRounds_keepsDecision
    soloRounds_castKeepsDecision (0 : Nat) (sampleRetry sampleRetryCandidate)
  refine ⟨rfl, rfl, fun later => ?_⟩
  exact (stays (sampleHandoverDecision 0 1 [sampleRetryCandidate]) rfl
    (by simp [sampleHandoverDecision]) later).2

end Handover

end SafeNetwork
