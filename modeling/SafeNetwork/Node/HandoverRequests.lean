import SafeNetwork.Messaging.SignatureAggregator
import SafeNetwork.Node.HandoverVotes

/-!
# Handover requests

`messaging/handover.rs`: the participants of a key generation ask the current elders to hand over to the
SAP they generated. A request carries a share of a signature over the SAP, and is passed on when there is
a share of every elder of the SAP. It leads to a proposal, at once when the prefix is ours, and for a
split when there are two SAPs of one generation.

That the shares are of the key set of the SAP is not checked, nor that the two SAPs of a split are for
the two halves of our section.
-/

namespace SafeNetwork

open Std Consensus NetworkKnowledge

/-! ## Orders

The derived orders of the source compare field by field. -/

section

variable {PublicKeySet Id State : Type} [Ord PublicKeySet] [TransOrd PublicKeySet]
  [LawfulEqOrd PublicKeySet] [Ord Id] [TransOrd Id] [Ord State] [TransOrd State]

namespace SectionAuthorityProvider

def cmp : SectionAuthorityProvider PublicKeySet Id State →
    SectionAuthorityProvider PublicKeySet Id State → Ordering :=
  compareLex (compareOn sapPrefix) (compareLex (compareOn publicKeySet)
    (compareLex (compareOn (·.elders.toList)) (compareLex (compareOn (·.members.toList))
      (compareOn membershipGen))))

instance : Ord (SectionAuthorityProvider PublicKeySet Id State) := ⟨cmp⟩

instance : TransOrd (SectionAuthorityProvider PublicKeySet Id State) :=
  inferInstanceAs (TransCmp (compareLex (compareOn sapPrefix) (compareLex (compareOn publicKeySet)
    (compareLex (compareOn (·.elders.toList)) (compareLex (compareOn (·.members.toList))
      (compareOn membershipGen))))))

instance [LawfulEqOrd Id] [LawfulEqOrd State] :
    LawfulEqOrd (SectionAuthorityProvider PublicKeySet Id State) where
  eq_of_compare := by
    rintro ⟨one, keys, elders, members, gen⟩ ⟨other, keys', elders', members', gen'⟩ same
    obtain ⟨first, same⟩ := compareLex_eq_eq.mp same
    obtain ⟨second, same⟩ := compareLex_eq_eq.mp same
    obtain ⟨third, same⟩ := compareLex_eq_eq.mp same
    obtain ⟨fourth, fifth⟩ := compareLex_eq_eq.mp same
    obtain rfl : one = other := Std.compare_eq_iff_eq.mp first
    obtain rfl : keys = keys' := Std.compare_eq_iff_eq.mp second
    obtain rfl : elders = elders' := ExtTreeSet.toList_inj.mp (Std.compare_eq_iff_eq.mp third)
    obtain rfl : members = members' := ExtTreeSet.toList_inj.mp (Std.compare_eq_iff_eq.mp fourth)
    obtain rfl : gen = gen' := Std.compare_eq_iff_eq.mp fifth
    rfl

end SectionAuthorityProvider

variable {K : KeyScheme} [Ord K.Signature] [TransOrd K.Signature] {T : Type} [Ord T] [TransOrd T]

namespace SectionSigned

def cmp : SectionSigned K T → SectionSigned K T → Ordering :=
  compareLex (compareOn value) (compareLex (compareOn (·.sig.publicKey)) (compareOn (·.sig.signature)))

instance : Ord (SectionSigned K T) := ⟨cmp⟩

instance : TransOrd (SectionSigned K T) :=
  inferInstanceAs (TransCmp (compareLex (compareOn value)
    (compareLex (compareOn (·.sig.publicKey)) (compareOn (·.sig.signature)))))

instance [LawfulEqOrd K.Signature] [LawfulEqOrd T] : LawfulEqOrd (SectionSigned K T) where
  eq_of_compare := by
    rintro ⟨one, key, signature⟩ ⟨other, key', signature'⟩ same
    obtain ⟨first, same⟩ := compareLex_eq_eq.mp same
    obtain ⟨second, third⟩ := compareLex_eq_eq.mp same
    obtain rfl : one = other := Std.compare_eq_iff_eq.mp first
    obtain rfl : key = key' := Std.compare_eq_iff_eq.mp second
    obtain rfl : signature = signature' := Std.compare_eq_iff_eq.mp third
    rfl

end SectionSigned

end

/-- What handover requests use of the crates, beyond the handover: signature shares. -/
structure RequestScheme extends HandoverScheme where
  SignatureShare : Type
  Digest256 : Type
  BlsError : Type
  [ordSignatureShare : Ord SignatureShare]
  [transOrdSignatureShare : TransOrd SignatureShare]
  [lawfulEqOrdSignatureShare : LawfulEqOrd SignatureShare]
  [ordDigest256 : Ord Digest256]
  [transOrdDigest256 : TransOrd Digest256]
  [lawfulEqOrdDigest256 : LawfulEqOrd Digest256]
  threshold : PublicKeySet → Nat
  /-- `PublicKeyShare::verify` with the share of a key set at an index. -/
  verifyShare : PublicKeySet → Nat → SignatureShare → List UInt8 → Bool
  combineSignatures : PublicKeySet → List (Nat × SignatureShare) → Except BlsError Signature
  /-- The `Sha3` hash of a payload followed by the bytes of a public key. -/
  digest : List UInt8 → PublicKey → Digest256

attribute [instance] RequestScheme.ordSignatureShare RequestScheme.transOrdSignatureShare
  RequestScheme.lawfulEqOrdSignatureShare RequestScheme.ordDigest256
  RequestScheme.transOrdDigest256 RequestScheme.lawfulEqOrdDigest256

instance RequestScheme.transOrdNodeId (R : RequestScheme) : TransOrd (NodeId R.SocketAddr) :=
  inferInstance

instance RequestScheme.transOrdNodeState (R : RequestScheme) :
    TransOrd (NodeState R.SocketAddr R.RelocationTrigger) :=
  inferInstance

instance RequestScheme.transOrdSignedSap (R : RequestScheme) : TransOrd R.sections.SignedSap :=
  inferInstance

abbrev RequestScheme.shares (R : RequestScheme) : ShareScheme where
  toKeyScheme := R.toKeyScheme
  PublicKeySet := R.PublicKeySet
  SignatureShare := R.SignatureShare
  Digest256 := R.Digest256
  BlsError := R.BlsError
  publicKey := R.publicKey
  threshold := R.threshold
  verifyShare := R.verifyShare
  combineSignatures := R.combineSignatures
  digest := R.digest

variable {R : RequestScheme}

/-- The part of `MyNode` that handover requests use. -/
structure RequestNode (R : RequestScheme) extends HandoverNode R.toHandoverScheme where
  handoverRequestAggregator : TotalParticipationAggregator R.shares := {}
  /-- `pending_split_sections` — the SAPs of a split by generation. -/
  pendingSplitSections : ExtTreeMap UInt64 (ExtTreeSet R.sections.SignedSap) := ∅

structure HandoverRequest (R : RequestScheme) where
  sap : R.sections.Sap
  sigShare : SectionSigShare R.shares
  sender : NodeId R.SocketAddr

namespace TotalParticipationAggregator

/-- The part of `MyNode::handle_handover_request` before a SAP is passed on: what it is passed on with,
if it is. -/
def handleRequest (self : TotalParticipationAggregator R.shares) (request : HandoverRequest R) :
    Except ElderError (Option (SectionSig R.toKeyScheme)) × TotalParticipationAggregator R.shares :=
  if !NodeScheme.containsElder request.sap request.sender.name then (.ok none, self)
  else
    let totalParticipants := request.sap.elders.size
    match R.serializeSap request.sap with
    | none => (.error .bincode, self)
    | some serialisedSap =>
      match self.tryAggregate serialisedSap request.sigShare totalParticipants with
      | (.ok sig, aggregator) => (.ok sig, aggregator)
      | (.error _, aggregator) => (.ok none, aggregator)

end TotalParticipationAggregator

namespace RequestNode

/-- The part of `MyNode::handle_request_handover_agreement` before a proposal: the candidate that an
agreed SAP leads to, if there is one. -/
def candidateFor (self : RequestNode R) (signedSap : R.sections.SignedSap) :
    Option (SapCandidate R.toNodeScheme) × RequestNode R :=
  let ours := self.knowledge.signedSap.value.sapPrefix
  if signedSap.value.sapPrefix ≠ ours ∧ !signedSap.value.sapPrefix.isExtensionOf ours then (none, self)
  else if signedSap.value.sapPrefix = ours then (some (.elderHandover signedSap), self)
  else
    let membershipGen := signedSap.value.membershipGen
    let candidates := (self.pendingSplitSections[membershipGen]?.getD ∅).insert signedSap
    let self := { self with
      pendingSplitSections := self.pendingSplitSections.insert membershipGen candidates }
    match candidates.toList with
    | [sap1, sap2] => (some (.sectionSplit sap1 sap2), self)
    | _ => (none, self)

def handleRequestHandoverAgreement (self : RequestNode R) (sap : R.sections.Sap)
    (sig : SectionSig R.toKeyScheme) :
    Except ElderError (List (HandoverCmd R.toHandoverScheme)) × RequestNode R :=
  match self.candidateFor ⟨sap, sig⟩ with
  | (some candidate, self) =>
    let (result, node) := self.toHandoverNode.proposeHandoverConsensus candidate
    (result, { self with toHandoverNode := node })
  | (none, self) => (.ok [], self)

def handleHandoverRequest (self : RequestNode R) (request : HandoverRequest R) :
    Except ElderError (List (HandoverCmd R.toHandoverScheme)) × RequestNode R :=
  match self.handoverRequestAggregator.handleRequest request with
  | (.error error, aggregator) => (.error error, { self with handoverRequestAggregator := aggregator })
  | (.ok none, aggregator) => (.ok [], { self with handoverRequestAggregator := aggregator })
  | (.ok (some sig), aggregator) =>
    { self with handoverRequestAggregator := aggregator }.handleRequestHandoverAgreement request.sap sig

end RequestNode

/-! ## What is passed on -/

/-- The bytes of a SAP determine its key set, as `bincode` can read it back from them. -/
def RequestScheme.EncodesKeySet (R : RequestScheme) : Prop :=
  ∀ sap other bytes, R.serializeSap sap = some bytes → R.serializeSap other = some bytes →
    sap.publicKeySet = other.publicKeySet

namespace TotalParticipationAggregator

variable {before : TotalParticipationAggregator R.shares} {request : HandoverRequest R}

def step (before : TotalParticipationAggregator R.shares) (request : HandoverRequest R) :
    TotalParticipationAggregator R.shares := (before.handleRequest request).2

def Own (request : HandoverRequest R) : Prop :=
  request.sigShare.publicKeySet = request.sap.publicKeySet

/-- The shares collected are valid, each of the key set of the SAP it is for. -/
def Owned (self : TotalParticipationAggregator R.shares) : Prop :=
  ∀ (bytes : List UInt8) (key : R.PublicKey) (share : SectionSigShare R.shares),
    share ∈ self.map.shares bytes key → share.verify bytes = true ∧
      ∃ sap, R.serializeSap sap = some bytes ∧ share.publicKeySet = sap.publicKeySet

theorem handleRequest_cases (before : TotalParticipationAggregator R.shares) (request : HandoverRequest R) :
    (before.handleRequest request).2 = before ∧
        (∀ sig, (before.handleRequest request).1 ≠ .ok (some sig)) ∨
      ∃ bytes, R.serializeSap request.sap = some bytes ∧
        (before.handleRequest request).2.map = (before.map.tryAggregate
          (· == request.sap.elders.size) bytes request.sigShare).2 ∧
        ∀ sig, (before.handleRequest request).1 = .ok (some sig) →
          (before.map.tryAggregate (· == request.sap.elders.size) bytes request.sigShare).1 = .ok (some sig) := by
  rw [handleRequest]
  split
  · exact .inl ⟨rfl, by simp⟩
  · cases encoded : R.serializeSap request.sap with
    | none => exact .inl ⟨rfl, by simp⟩
    | some bytes =>
      refine .inr ⟨bytes, rfl, ?_⟩
      dsimp only [tryAggregate]
      rcases (before.map.tryAggregate (· == request.sap.elders.size) bytes request.sigShare) with
        ⟨error | sig, map⟩
      · exact ⟨rfl, by simp⟩
      · exact ⟨rfl, fun sig same => by simpa using same⟩

theorem Owned.step (lawful : R.shares.Lawful) (owned : Owned before) (own : Own request) :
    Owned (before.step request) := by
  rw [TotalParticipationAggregator.step]
  rcases before.handleRequest_cases request with ⟨same, -⟩ | ⟨bytes, encoded, after, -⟩
  · rwa [same]
  · intro other key share mem
    rw [after] at mem
    rcases ShareMap.mem_shares_tryAggregate lawful mem with earlier | ⟨rfl, valid, rfl, -⟩
    · exact owned other key share earlier
    · exact ⟨valid, request.sap, encoded, own⟩

theorem Owned.uniform (encodes : R.EncodesKeySet) (owned : Owned before) (own : Own request)
    {bytes : List UInt8} (encoded : R.serializeSap request.sap = some bytes)
    (valid : request.sigShare.verify bytes = true) : ShareMap.Uniform (S := R.shares) request.sap.publicKeySet bytes
      (before.map.joined bytes request.sigShare) := by
  intro share mem
  rcases ExtTreeSet.mem_insert.mp mem with same | earlier
  · obtain rfl := Std.compare_eq_iff_eq.mp same
    exact ⟨own, valid⟩
  · obtain ⟨valid, sap, encoded', ofSet⟩ := owned bytes _ share earlier
    exact ⟨ofSet.trans (encodes sap request.sap bytes encoded' encoded), valid⟩

/-- In any run of requests whose shares are of the key sets of their SAPs, a SAP is passed on with a
signature under its own key, which combines as many valid shares of its key set with distinct indices as
it has elders. -/
theorem passed_on_signed (lawful : R.shares.Lawful) (encodes : R.EncodesKeySet)
    (requests : List (HandoverRequest R)) (own : ∀ request ∈ requests, Own request) :
    ∀ earlier request later sig, requests = earlier ++ request :: later →
      ((Runs.run step {} earlier).handleRequest request).1 = .ok (some sig) →
        sig.publicKey = R.publicKey request.sap.publicKeySet ∧
        ∃ bytes shares, R.serializeSap request.sap = some bytes ∧
          shares.length = request.sap.elders.size ∧ (shares.map Prod.fst).Nodup ∧
          (∀ share ∈ shares, R.verifyShare request.sap.publicKeySet share.1 share.2 bytes = true) ∧
          R.combineSignatures request.sap.publicKeySet shares = .ok sig.signature := by
  rintro earlier request later sig rfl passed
  have initial : Owned ({} : TotalParticipationAggregator R.shares) := by
    intro bytes key share mem
    simp [ShareMap.shares] at mem
  have owned : Owned (Runs.run step {} earlier) := Runs.run_induction initial
    fun _ owned other mem => owned.step lawful (own other (List.mem_append_left _ mem))
  have ownNow : Own request := own request (by simp)
  generalize Runs.run step {} earlier = before at owned passed
  rcases before.handleRequest_cases request with ⟨-, none⟩ | ⟨bytes, encoded, -, answered⟩
  · exact absurd passed (none sig)
  · have answer := answered sig passed
    have outcome := ShareMap.aggregated (· == request.sap.elders.size) before.map bytes
      request.sigShare
    rw [answer] at outcome
    generalize (before.map.tryAggregate _ bytes request.sigShare).2 = after at outcome
    cases outcome with
    | combined valid many combines =>
      have uniform := owned.uniform encodes ownNow encoded valid
      refine ⟨congrArg R.publicKey ownNow, bytes, _, encoded, ?_, ?_, ?_, ownNow ▸ combines⟩
      · rw [ShareMap.listed, List.length_map, ExtTreeSet.length_toList]
        exact eq_of_beq many
      · rw [ShareMap.listed, List.map_map]
        exact uniform.nodup lawful
      · intro pair mem
        obtain ⟨share, member, rfl⟩ := List.mem_map.mp mem
        obtain ⟨ofSet, valid⟩ := uniform share (ExtTreeSet.mem_toList.mp member)
        exact ofSet ▸ valid

end TotalParticipationAggregator

/-! ## Sample requests -/

abbrev sampleRequests : RequestScheme where
  toHandoverScheme := Handover.sampleHandovers
  SignatureShare := List Nat
  Digest256 := List Nat
  BlsError := Unit
  threshold _ := 1
  verifyShare keySet index share payload := share == index :: payload.length :: [keySet]
  combineSignatures keySet shares := sampleCombine [keySet] keySet shares
  digest payload key := key :: payload.map UInt8.toNat

theorem sampleRequests_lawful : sampleRequests.shares.Lawful :=
  show (sampleShares Nat (fun keySet => [keySet]) id).Lawful from sampleShares_lawful

theorem sampleRequests_encodesKeySet : sampleRequests.EncodesKeySet := by
  intro sap other bytes encoded encoded'
  have same := Option.some.inj (encoded.trans encoded'.symm)
  simpa using congrArg List.length same

namespace TotalParticipationAggregator

def sampleTwoElders : sampleRequests.sections.Sap :=
  ⟨default, (3 : Nat), .ofList [sampleNodeId [false] 1, sampleNodeId [true] 2], ∅, 0⟩

def sampleRequest (keySet : Nat) (second : Bool) : HandoverRequest sampleRequests :=
  ⟨sampleTwoElders, ⟨keySet, second.toNat, [second.toNat, 3, keySet]⟩,
    if second then sampleNodeId [true] 2 else sampleNodeId [false] 1⟩

def passedWith : Except ElderError (Option (SectionSig sampleKeys)) → Option (Nat × Nat × Nat)
  | .ok (some sig) => some (sig.publicKey, sig.signature)
  | _ => none

theorem eq_of_passedWith {answer : Except ElderError (Option (SectionSig sampleKeys))}
    {key : Nat} {signature : Nat × Nat} (passed : passedWith answer = some (key, signature)) :
    answer = .ok (some ⟨key, signature⟩) := by
  match answer, passed with
  | .ok (some _), passed =>
    obtain ⟨rfl, rfl⟩ := Prod.mk.inj (Option.some.inj passed)
    rfl

def sampleAnswer (keySet : Nat) : Except ElderError (Option (SectionSig sampleKeys)) :=
  ((Runs.run step {} [sampleRequest keySet false]).handleRequest (sampleRequest keySet true)).1

theorem passed_on_signed_sampleRequest : ∃ sig, sampleAnswer 3 = .ok (some sig) ∧ sig.publicKey = (3 : Nat) ∧
      ∃ shares, shares.length = 2 ∧ (shares.map Prod.fst).Nodup ∧
        sampleRequests.combineSignatures (3 : Nat) shares = .ok sig.signature := by
  have passed : sampleAnswer 3 = .ok (some ⟨(3 : Nat), sampleSig 3 3⟩) :=
    eq_of_passedWith (by decide +kernel)
  obtain ⟨ofKey, bytes, shares, -, length, nodup, -, combines⟩ := passed_on_signed sampleRequests_lawful
    sampleRequests_encodesKeySet [sampleRequest 3 false, sampleRequest 3 true]
    (by simp [Own, sampleRequest, sampleTwoElders]) [sampleRequest 3 false] (sampleRequest 3 true) [] _
    rfl passed
  have two : sampleTwoElders.elders.size = 2 := by decide +kernel
  exact ⟨_, passed, ofKey, shares, length.trans two, nodup, combines⟩

/-- Shares of another key set are passed on with a signature that is not under the key of the SAP. -/
theorem passed_on_foreign_signature : sampleAnswer 9 = .ok (some ⟨(9 : Nat), sampleSig 9 3⟩) ∧
      sampleRequests.publicKey (sampleRequest 9 true).sap.publicKeySet = (3 : Nat) :=
  ⟨eq_of_passedWith (by decide +kernel), rfl⟩

end TotalParticipationAggregator

end SafeNetwork
