import SafeNetwork.Node.SplitSessions

/-!
# Checks of SAP candidates

`messaging/handover.rs`: a candidate for the next SAP of a section, or for the SAPs of its two halves, is
checked against the network knowledge. Its prefix is ours or a half of it, it is signed by its own key,
and its elders are the candidates that the checking elder would choose itself.

A regular handover is compared with the members at the generation of the candidate. A split is compared
with the members at the generation of our current SAP instead, so that a split which members who joined
since have made possible is refused.
-/

namespace SafeNetwork

open Std

/-- `SapCandidate` — candidates for handover consensus to vote on, each signed by their own section
key. -/
inductive SapCandidate (N : NodeScheme) where
  | elderHandover (sap : N.sections.SignedSap)
  | sectionSplit (sap1 sap2 : N.sections.SignedSap)

def SapCandidate.isSplit {N : NodeScheme} : SapCandidate N → Bool
  | .elderHandover _ => false
  | .sectionSplit _ _ => true

/-- `node::Error`, as far as handovers return it. A text is kept without the debug prints in it. -/
inductive ElderError where
  | bincode
  | invalidSignature
  | untrustedSectionAuthProvider (text : String)
  | failedToGetSapForPrefix (sapPrefix : Prefix)
  | invalidElderCandidates
  | invalidSplitCandidates
  | invalidSectionPrefixForCandidate
  | invalidSectionPrefixForSplitCandidates
  | requestHandoverAntiEntropy (gen : Nat)
  | handover
deriving DecidableEq, Repr

/-- `MyNode::check_sap_sig` — SAP candidates are signed by the candidate section key. -/
def checkSapSig {N : NodeScheme} (sap : N.sections.SignedSap) : Except ElderError Unit :=
  match N.serializeSap sap.value with
  | none => .error .bincode
  | some sapBytes =>
    if !sap.sig.verify sapBytes then .error .invalidSignature
    else if sap.sectionKey ≠ sap.sig.publicKey then
      .error (.untrustedSectionAuthProvider
        "the auth around the SAP does not match the SAP's public key")
    else .ok ()

namespace NetworkKnowledge

variable {N : NodeScheme}

def getSapForPrefix (self : NetworkKnowledge N.sections) (sapPrefix : Prefix) :
    Except ElderError N.sections.Sap :=
  match self.sectionTree.getSigned sapPrefix with
  | some sap => .ok sap.value
  | none => .error (.failedToGetSapForPrefix sapPrefix)

def checkElderHandoverCandidates (self : NetworkKnowledge N.sections) (sap : N.sections.Sap) :
    Except ElderError Unit := do
  let previousGenSap ← self.getSapForPrefix sap.sapPrefix
  let members := self.sectionMembers.membersAtGen sap.membershipGen.toNat
  let expectedCandidates : ExtTreeSet (NodeId N.SocketAddr) :=
    .ofList ((NodeScheme.elderCandidates (members.toList.map (·.2)) previousGenSap).toList.map
      (·.nodeId))
  if sap.elders.toList ≠ expectedCandidates.toList then .error .invalidElderCandidates
  else .ok ()

def checkSectionSplitCandidates (self : NetworkKnowledge N.sections) (sap1 sap2 : N.sections.Sap) :
    Except ElderError Unit := do
  let previousGenSap ← self.getSapForPrefix sap1.sapPrefix.popped
  let members := self.sectionMembers.membersAtGen previousGenSap.membershipGen.toNat
  match NodeScheme.trySplitDkg members previousGenSap 0 0 with
  | some (dkg1, dkg2) =>
    if (sap1.elders.toList ≠ dkg1.elderIds.toList ∨ sap2.elders.toList ≠ dkg2.elderIds.toList) ∧
        (sap2.elders.toList ≠ dkg1.elderIds.toList ∨ sap1.elders.toList ≠ dkg2.elderIds.toList) then
      .error .invalidElderCandidates
    else .ok ()
  | none => .error .invalidSplitCandidates

def checkSapCandidatePrefix (self : NetworkKnowledge N.sections) (sapCandidate : SapCandidate N) :
    Except ElderError Unit :=
  let sectionPrefix := self.ourPrefix
  match sapCandidate with
  | .elderHandover singleSap =>
    if singleSap.sapPrefix = sectionPrefix then .ok () else .error .invalidSectionPrefixForCandidate
  | .sectionSplit sap1 sap2 =>
    let p1 := sap1.sapPrefix
    let p2 := sap2.sapPrefix
    if p1.isExtensionOf sectionPrefix ∧ p2.isExtensionOf sectionPrefix ∧
        p1.bits.length = sectionPrefix.bits.length + 1 ∧
        p2.bits.length = sectionPrefix.bits.length + 1 ∧ p1 ≠ p2 then .ok ()
    else .error .invalidSectionPrefixForSplitCandidates

def checkSapCandidate (self : NetworkKnowledge N.sections) (sapCandidate : SapCandidate N) :
    Except ElderError Unit := do
  self.checkSapCandidatePrefix sapCandidate
  match sapCandidate with
  | .elderHandover authedSap =>
    checkSapSig authedSap
    self.checkElderHandoverCandidates authedSap.value
  | .sectionSplit authedSap1 authedSap2 =>
    checkSapSig authedSap1
    checkSapSig authedSap2
    self.checkSectionSplitCandidates authedSap1.value authedSap2.value

/-! ## Proposers and validators -/

variable {self : NetworkKnowledge N.sections} {sap sap1 sap2 : N.sections.SignedSap} {gen : UInt64} {chainLen : Nat}
  {zero one : DkgSessionId N} {zeros ones : ExtTreeSet (NodeId N.SocketAddr)} {bit : Bool}

def SelfSigned (sap : N.sections.SignedSap) : Prop :=
  sap.selfVerify N.serializeSap = true ∧ sap.sig.publicKey = sap.sectionKey

/-- A candidate that is built from the sessions of some elder candidates, with any key sets of their
DKGs and signed by the new keys. The SAPs of a split may come in any order. -/
inductive BuiltFrom : List (DkgSessionId N) → SapCandidate N → Prop where
  | elderHandover {session : DkgSessionId N} {pkSet : N.PublicKeySet} {sap : N.sections.SignedSap}
    (built : sap.value = NodeScheme.fromDkgSession session pkSet) (signed : SelfSigned sap) :
    BuiltFrom [session] (.elderHandover sap)
  | sectionSplit {zero one : DkgSessionId N} {zeroSet oneSet : N.PublicKeySet}
    {sap1 sap2 : N.sections.SignedSap} (zeroBuilt : sap1.value = NodeScheme.fromDkgSession zero zeroSet)
    (oneBuilt : sap2.value = NodeScheme.fromDkgSession one oneSet) (zeroSigned : SelfSigned sap1)
    (oneSigned : SelfSigned sap2) : BuiltFrom [zero, one] (.sectionSplit sap1 sap2)
  | sectionSplitSwapped {zero one : DkgSessionId N} {zeroSet oneSet : N.PublicKeySet}
    {sap1 sap2 : N.sections.SignedSap} (oneBuilt : sap1.value = NodeScheme.fromDkgSession one oneSet)
    (zeroBuilt : sap2.value = NodeScheme.fromDkgSession zero zeroSet) (oneSigned : SelfSigned sap1)
    (zeroSigned : SelfSigned sap2) : BuiltFrom [zero, one] (.sectionSplit sap1 sap2)

theorem sapPrefix_of_session {session : DkgSessionId N}
    {pkSet : N.PublicKeySet} (built : sap.value = NodeScheme.fromDkgSession session pkSet) :
    sap.sapPrefix = session.sapPrefix := by
  rw [SectionSigned.sapPrefix, built]
  rfl

theorem checkSapSig_ok (signed : SelfSigned sap) : checkSapSig sap = .ok () := by
  obtain ⟨verified, same⟩ := signed
  rw [SectionSigned.selfVerify] at verified
  rw [checkSapSig]
  cases bytes : N.serializeSap sap.value with
  | none => simp [bytes] at verified
  | some sapBytes =>
    simp only [bytes] at verified
    simp [verified, same]

theorem bestElderCandidatesAtGen_cases (self : NetworkKnowledge N.sections) (gen : UInt64) :
    let members := self.sectionMembers.membersAtGen gen.toNat
    let sap := self.signedSap.value
    let chainLen := self.sectionChain.keys.length
    (∃ zero one, NodeScheme.trySplitDkg members sap chainLen gen = some (zero, one) ∧
      self.bestElderCandidatesAtGen gen = [zero, one]) ∨
    self.bestElderCandidatesAtGen gen = [] ∨
    self.bestElderCandidatesAtGen gen =
      [NodeScheme.sessionOf (NodeScheme.elderCandidates (members.toList.map (·.2)) sap) sap.sapPrefix
        (.ofList (members.toList.map (·.2))) chainLen gen] := by
  intro members sap chainLen
  rw [bestElderCandidatesAtGen]
  cases splits : NodeScheme.trySplitDkg members sap chainLen gen with
  | some both => exact .inl ⟨both.1, both.2, rfl, rfl⟩
  | none =>
    right
    dsimp only
    split
    · exact .inl rfl
    · split
      · exact .inl rfl
      · split
        · exact .inl rfl
        · split
          · exact .inl rfl
          · exact .inr rfl

def splitElders (self : NetworkKnowledge N.sections) (gen : UInt64) :
    Option (ExtTreeSet (NodeId N.SocketAddr) × ExtTreeSet (NodeId N.SocketAddr)) :=
  (NodeScheme.trySplitDkg (self.sectionMembers.membersAtGen gen.toNat) self.signedSap.value 0 0).map
    fun sessions => (sessions.1.elderIds, sessions.2.elderIds)

theorem splitElders_eq (splits : NodeScheme.trySplitDkg (self.sectionMembers.membersAtGen gen.toNat) self.signedSap.value
      chainLen gen = some (zero, one)) : self.splitElders gen = some (zero.elderIds, one.elderIds) := by
  unfold NodeScheme.trySplitDkg at splits
  rw [splitElders, NodeScheme.trySplitDkg]
  split at splits
  · cases splits
  · obtain ⟨rfl, rfl⟩ := Prod.mk.inj (Option.some.inj splits)
    rfl

theorem checkElderHandoverCandidates_ok
    (held : self.sectionTree.getSigned self.ourPrefix = some self.signedSap) {bootstrapMembers : ExtTreeSet N.State} (pkSet : N.PublicKeySet) :
    self.checkElderHandoverCandidates (NodeScheme.fromDkgSession (NodeScheme.sessionOf
      (NodeScheme.elderCandidates ((self.sectionMembers.membersAtGen gen.toNat).toList.map (·.2))
        self.signedSap.value) self.ourPrefix bootstrapMembers chainLen gen) pkSet) = .ok () := by
  have apart := (NodeScheme.named_membersAtGen self.sectionMembers
    gen.toNat).namesApart_elderCandidates self.signedSap.value
  have previous : self.getSapForPrefix self.ourPrefix = .ok self.signedSap.value := by
    rw [getSapForPrefix, held]
  generalize session : NodeScheme.sessionOf (NodeScheme.elderCandidates
    ((self.sectionMembers.membersAtGen gen.toNat).toList.map (·.2)) self.signedSap.value) self.ourPrefix
    bootstrapMembers chainLen gen = proposed
  have place : proposed.sapPrefix = self.ourPrefix ∧ proposed.membershipGen = gen := by
    rw [← session]
    exact ⟨rfl, rfl⟩
  have same : proposed.elderIds = .ofList ((NodeScheme.elderCandidates
      ((self.sectionMembers.membersAtGen gen.toNat).toList.map (·.2))
        self.signedSap.value).toList.map (·.nodeId)) := by
    apply ExtTreeSet.ext_mem
    intro id
    rw [← session, NodeScheme.mem_elderIds apart, ExtTreeSet.mem_ofList, List.contains_iff_mem,
      List.mem_map]
    simp only [ExtTreeSet.mem_toList]
  simp only [checkElderHandoverCandidates, NodeScheme.fromDkgSession, place.1, place.2, previous, bind,
    Except.bind, same]
  rw [if_neg (not_not.mpr rfl)]

theorem splitElders_bit (splits : self.splitElders gen = some (zeros, ones)) :
    (∀ id : NodeId N.SocketAddr, id ∈ zeros → id.name.bit self.ourPrefix.bits.length = false) ∧
      ∀ id : NodeId N.SocketAddr, id ∈ ones → id.name.bit self.ourPrefix.bits.length = true := by
  obtain ⟨⟨zero, one⟩, sessions, same⟩ := Option.map_eq_some_iff.mp splits
  obtain ⟨rfl, rfl⟩ := Prod.mk.inj same
  obtain ⟨-, -, bits⟩ :=
    (NodeScheme.named_membersAtGen self.sectionMembers gen.toNat).of_trySplitDkg sessions
  exact bits

/-- Splits at two generations have the same elders when they have them the other way round: then there
are none. -/
theorem splitElders_of_swapped {other : UInt64} (splits : self.splitElders gen = some (zeros, ones)) (swapped : self.splitElders other = some (ones, zeros)) :
    self.splitElders other = some (zeros, ones) := by
  obtain ⟨zeroBit, oneBit⟩ := splitElders_bit splits
  obtain ⟨oneBit', zeroBit'⟩ := splitElders_bit swapped
  have same : zeros = ones := by
    apply ExtTreeSet.ext_mem
    intro id
    constructor
    · intro listed
      exact absurd (zeroBit' id listed) (by rw [zeroBit id listed]; exact Bool.false_ne_true)
    · intro listed
      exact absurd (oneBit id listed) (by rw [oneBit' id listed]; exact Bool.false_ne_true)
  rw [swapped, same]

theorem toList_inj {one other : ExtTreeSet (NodeId N.SocketAddr)} : one.toList = other.toList ↔ one = other := by
  constructor
  · intro same
    apply ExtTreeSet.ext_mem
    intro id
    rw [← ExtTreeSet.mem_toList, same, ExtTreeSet.mem_toList]
  · rintro rfl
    rfl

theorem checkSectionSplitCandidates_ok (held : self.sectionTree.getSigned self.ourPrefix = some self.signedSap)
    {sap1 sap2 : N.sections.Sap} (popped : sap1.sapPrefix.popped = self.ourPrefix) :
    self.checkSectionSplitCandidates sap1 sap2 = .ok () ↔
      self.splitElders self.signedSap.value.membershipGen = some (sap1.elders, sap2.elders) ∨
        self.splitElders self.signedSap.value.membershipGen = some (sap2.elders, sap1.elders) := by
  have previous : self.getSapForPrefix sap1.sapPrefix.popped = .ok self.signedSap.value := by
    rw [getSapForPrefix, popped, held]
  simp only [checkSectionSplitCandidates, previous, bind, Except.bind, splitElders]
  cases NodeScheme.trySplitDkg (self.sectionMembers.membersAtGen
      self.signedSap.value.membershipGen.toNat) self.signedSap.value 0 0 with
  | none => simp
  | some sessions =>
    obtain ⟨zero, one⟩ := sessions
    simp only [Option.map_some, Option.some.injEq, Prod.mk.injEq, ne_eq, toList_inj]
    split
    · rename_i differs
      simp only [reduceCtorEq, false_iff, not_or, not_and]
      exact ⟨fun first second => differs.1.elim (· first.symm) (· second.symm),
        fun first second => differs.2.elim (· first.symm) (· second.symm)⟩
    · rename_i same
      simp only [true_iff]
      by_contra neither
      obtain ⟨straight, swapped⟩ := not_or.mp neither
      refine same ⟨?_, ?_⟩
      · by_contra both
        obtain ⟨first, second⟩ := not_or.mp both
        exact straight ⟨(not_not.mp first).symm, (not_not.mp second).symm⟩
      · by_contra both
        obtain ⟨first, second⟩ := not_or.mp both
        exact swapped ⟨(not_not.mp first).symm, (not_not.mp second).symm⟩

theorem checkSapCandidatePrefix_split (first : sap1.sapPrefix = self.ourPrefix.pushed bit) (second : sap2.sapPrefix = self.ourPrefix.pushed !bit) :
    self.checkSapCandidatePrefix (.sectionSplit sap1 sap2) = .ok () := by
  have extends' : ∀ bit, (self.ourPrefix.pushed bit).isExtensionOf self.ourPrefix = true := by
    intro bit
    refine Prefix.isExtensionOf_iff.mpr ⟨Prefix.covers_pushed _ _, fun same => ?_⟩
    have length := congrArg (·.bits.length) same
    simp [Prefix.pushed] at length
  have differs : self.ourPrefix.pushed bit ≠ self.ourPrefix.pushed !bit := by
    intro same
    cases bit <;> simp [Prefix.pushed] at same
  simp only [checkSapCandidatePrefix, first, second]
  rw [if_pos]
  exact ⟨extends' _, extends' _, by simp [Prefix.pushed], by simp [Prefix.pushed], differs⟩

/-- The SAPs of a split at a generation pass, in either order, when the split at the generation of our
SAP has the same elders. -/
theorem checkSapCandidate_split_iff
    (held : self.sectionTree.getSigned self.ourPrefix = some self.signedSap) (splits : self.splitElders gen = some (zeros, ones)) (first : sap1.sapPrefix = self.ourPrefix.pushed bit)
    (second : sap2.sapPrefix = self.ourPrefix.pushed !bit) (signed1 : SelfSigned sap1)
    (signed2 : SelfSigned sap2) (elders : sap1.value.elders = zeros ∧ sap2.value.elders = ones ∨
      sap1.value.elders = ones ∧ sap2.value.elders = zeros) :
    self.checkSapCandidate (.sectionSplit sap1 sap2) = .ok () ↔
      self.splitElders gen = self.splitElders self.signedSap.value.membershipGen := by
  have popped : sap1.value.sapPrefix.popped = self.ourPrefix := by
    have shown : sap1.value.sapPrefix = self.ourPrefix.pushed bit := first
    rw [shown, Prefix.pushed, Prefix.popped, List.dropLast_concat]
  have swap : self.splitElders self.signedSap.value.membershipGen = some (ones, zeros) →
      self.splitElders self.signedSap.value.membershipGen = some (zeros, ones) :=
    splitElders_of_swapped splits
  simp only [checkSapCandidate, checkSapCandidatePrefix_split first second, checkSapSig_ok signed1,
    checkSapSig_ok signed2, bind, Except.bind]
  rw [checkSectionSplitCandidates_ok held popped, splits,
    eq_comm (b := self.splitElders self.signedSap.value.membershipGen)]
  obtain ⟨rfl, rfl⟩ | ⟨rfl, rfl⟩ := elders
  · exact ⟨fun either => either.elim id swap, .inl⟩
  · exact ⟨fun either => either.elim swap id, .inr⟩

theorem split_of_bestElderCandidatesAtGen (proposed : self.bestElderCandidatesAtGen gen = [zero, one]) :
    self.splitElders gen = some (zero.elderIds, one.elderIds) ∧
      zero.sapPrefix = self.ourPrefix.pushed false ∧ one.sapPrefix = self.ourPrefix.pushed true := by
  obtain ⟨first, second, splits, pair⟩ | none | single := self.bestElderCandidatesAtGen_cases gen
  · obtain ⟨rfl, rfl⟩ : zero = first ∧ one = second := by simpa using proposed.symm.trans pair
    obtain ⟨zeroPrefix, onePrefix, -⟩ :=
      (NodeScheme.named_membersAtGen self.sectionMembers gen.toNat).of_trySplitDkg splits
    exact ⟨splitElders_eq splits, zeroPrefix, onePrefix⟩
  · cases proposed.symm.trans none
  · cases proposed.symm.trans single

/-- Proposer and validator agree: a candidate built from what an elder proposes at a generation passes
the check of every elder with the same knowledge, but for a split whose elders are not those of the
split at the generation of our current SAP. -/
theorem checkSapCandidate_iff (held : self.sectionTree.getSigned self.ourPrefix = some self.signedSap) (gen : UInt64)
    (candidate : SapCandidate N) (built : BuiltFrom (self.bestElderCandidatesAtGen gen) candidate) :
    self.checkSapCandidate candidate = .ok () ↔
      (candidate.isSplit = true → self.splitElders gen = self.splitElders self.signedSap.value.membershipGen) := by
  have proposed := self.bestElderCandidatesAtGen_cases gen
  have halves : ∀ zero one, self.bestElderCandidatesAtGen gen = [zero, one] → _ := fun _ _ =>
    split_of_bestElderCandidatesAtGen
  generalize self.bestElderCandidatesAtGen gen = sessions at built proposed halves
  cases built with
  | @elderHandover session pkSet sap built signed =>
    obtain ⟨zero, one, -, pair⟩ | none | single := proposed
    · cases pair
    · cases none
    · obtain ⟨rfl, -⟩ := List.cons.inj single
      have place : sap.sapPrefix = self.ourPrefix := sapPrefix_of_session built
      have passes : self.checkElderHandoverCandidates sap.value = .ok () := by
        rw [built]
        exact checkElderHandoverCandidates_ok held pkSet
      simp [checkSapCandidate, checkSapCandidatePrefix, place, checkSapSig_ok signed, passes, bind,
        Except.bind, SapCandidate.isSplit]
  | sectionSplit zeroBuilt oneBuilt zeroSigned oneSigned =>
    obtain ⟨splits, zeroPrefix, onePrefix⟩ := halves _ _ rfl
    rw [← sapPrefix_of_session zeroBuilt] at zeroPrefix
    rw [← sapPrefix_of_session oneBuilt] at onePrefix
    rw [checkSapCandidate_split_iff held splits zeroPrefix onePrefix zeroSigned oneSigned
      (.inl ⟨by rw [zeroBuilt]; rfl, by rw [oneBuilt]; rfl⟩)]
    simp [SapCandidate.isSplit]
  | sectionSplitSwapped oneBuilt zeroBuilt oneSigned zeroSigned =>
    obtain ⟨splits, zeroPrefix, onePrefix⟩ := halves _ _ rfl
    rw [← sapPrefix_of_session zeroBuilt] at zeroPrefix
    rw [← sapPrefix_of_session oneBuilt] at onePrefix
    rw [checkSapCandidate_split_iff held splits onePrefix zeroPrefix oneSigned zeroSigned
      (.inr ⟨by rw [oneBuilt]; rfl, by rw [zeroBuilt]; rfl⟩)]
    simp [SapCandidate.isSplit]

/-! ## A sample section -/

def sampleHalves : List sampleNodes.State :=
  [.joined (sampleNodeId [false] 1) none, .joined (sampleNodeId [false, true] 2) none,
    .joined (sampleNodeId [true] 3) none, .joined (sampleNodeId [true, true] 4) none]

def sampleSection (members : List sampleNodes.State) (decisions : List (Decision sampleNodes.sections)) :
    NetworkKnowledge sampleNodes.sections :=
  let signedSap : sampleNodes.sections.SignedSap :=
    ⟨⟨default, (0 : Nat), .ofList [sampleNodeId [false] 1], .ofList members, 0⟩, (0 : Nat), sampleSig 0 0⟩
  ⟨signedSap, { initialMembers := .ofList members, decisions },
    ⟨(∅ : ExtTreeMap Prefix sampleNodes.sections.SignedSap).insert default signedSap, .new (0 : Nat)⟩⟩

def sampleNewSap (session : DkgSessionId sampleNodeScheme) (key : Nat) :
    sampleNodes.sections.SignedSap :=
  ⟨NodeScheme.fromDkgSession session key, key, sampleSig key key⟩

theorem sampleNewSap_signed (session : DkgSessionId sampleNodeScheme) (key : Nat) :
    SelfSigned (sampleNewSap session key) := by
  simp [SelfSigned, sampleNewSap, SectionSigned.selfVerify, SectionSig.verify, sampleSig,
    NodeScheme.fromDkgSession, SectionSigned.sectionKey, SectionScheme.sectionKey]

theorem checkSapCandidate_sampleHalves :
    ∃ zero one, (sampleSection sampleHalves []).bestElderCandidatesAtGen 0 = [zero, one] ∧
      (sampleSection sampleHalves []).checkSapCandidate
        (.sectionSplit (sampleNewSap zero 1) (sampleNewSap one 2)) = .ok () := by
  obtain ⟨zero, one, proposed⟩ := List.length_eq_two.mp
    (show ((sampleSection sampleHalves []).bestElderCandidatesAtGen 0).length = 2 by decide +kernel)
  have built : BuiltFrom ((sampleSection sampleHalves []).bestElderCandidatesAtGen 0)
      (.sectionSplit (sampleNewSap zero 1) (sampleNewSap one 2)) := by
    rw [proposed]
    exact .sectionSplit rfl rfl (sampleNewSap_signed zero 1) (sampleNewSap_signed one 2)
  exact ⟨zero, one, proposed, (checkSapCandidate_iff rfl 0 _ built).mpr fun _ => rfl⟩

/-- A section that can split after a decision proposes a split that does not pass: at the generation of
its SAP it had no members to split. -/
theorem checkSapCandidate_refuses_split :
    ∃ zero one, (sampleSection [] [sampleDecision 0 1 sampleHalves]).bestElderCandidatesAtGen 1 = [zero, one] ∧
      SelfSigned (sampleNewSap zero 1) ∧ SelfSigned (sampleNewSap one 2) ∧
      ((sampleSection [] [sampleDecision 0 1 sampleHalves]).checkSapCandidate
        (.sectionSplit (sampleNewSap zero 1) (sampleNewSap one 2))).isOk = false := by
  obtain ⟨zero, one, proposed⟩ := List.length_eq_two.mp (show ((sampleSection []
    [sampleDecision 0 1 sampleHalves]).bestElderCandidatesAtGen 1).length = 2 by decide +kernel)
  have checked : ((fun candidates => (candidates.zip candidates.tail).all fun halves =>
      !((sampleSection [] [sampleDecision 0 1 sampleHalves]).checkSapCandidate
        (.sectionSplit (sampleNewSap halves.1 1) (sampleNewSap halves.2 2))).isOk)
      ((sampleSection [] [sampleDecision 0 1 sampleHalves]).bestElderCandidatesAtGen 1)) = true := by
    decide +kernel
  rw [proposed] at checked
  have refused := List.all_eq_true.mp checked (zero, one) (by simp)
  exact ⟨zero, one, proposed, sampleNewSap_signed zero 1, sampleNewSap_signed one 2, by simpa using refused⟩

end NetworkKnowledge

end SafeNetwork
