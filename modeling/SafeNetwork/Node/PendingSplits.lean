import SafeNetwork.Node.HandoverRequests

/-!
# Pending splits

The SAPs for a split are collected by generation in an ordered set, and a split is proposed while the set
has two of them. As long as each of them is for a half of our section, and no half has two different ones
in a generation, the two are for the two halves, and both are proposed once they have arrived.
-/

namespace SafeNetwork

open Std Consensus NetworkKnowledge

theorem Prefix.compare_pushed (ours : Prefix) : compare (ours.pushed true) (ours.pushed false) = .gt := by
  obtain ⟨bits⟩ := ours
  change compare (bits ++ [true]) (bits ++ [false]) = .gt
  induction bits with
  | nil => rfl
  | cons bit rest ih =>
    rw [List.cons_append, List.cons_append, List.compare_cons_cons, Std.compare_self]
    exact ih

namespace RequestNode

variable {R : RequestScheme} {ours : Prefix} {one other : R.sections.SignedSap}

theorem compare_of_prefix
    (after : compare one.value.sapPrefix other.value.sapPrefix = .gt) : compare one other = .gt := by
  have values : compare one.value other.value = .gt := by
    change SectionAuthorityProvider.cmp _ _ = _
    simp only [SectionAuthorityProvider.cmp, compareLex, compareOn, after]
    rfl
  change SectionSigned.cmp _ _ = _
  simp only [SectionSigned.cmp, compareLex, compareOn, values]
  rfl

/-- Some SAPs are for halves of our section, no two of them for the same half. -/
structure Halves (ours : Prefix) (saps : ExtTreeSet R.sections.SignedSap) : Prop where
  half : ∀ sap : R.sections.SignedSap, sap ∈ saps → ∃ bit, sap.value.sapPrefix = ours.pushed bit
  single : ∀ sap other : R.sections.SignedSap, sap ∈ saps → other ∈ saps →
    sap.value.sapPrefix = other.value.sapPrefix → sap = other

variable {saps : ExtTreeSet R.sections.SignedSap}

theorem eq_or_mem_of_insert (mem : other ∈ saps.insert one) : one = other ∨ other ∈ saps :=
  (ExtTreeSet.mem_insert.mp mem).imp_left Std.compare_eq_iff_eq.mp

theorem Halves.insert {signedSap : R.sections.SignedSap} (halves : Halves ours saps)
    (half : ∃ bit, signedSap.value.sapPrefix = ours.pushed bit)
    (single : ∀ other : R.sections.SignedSap, other ∈ saps →
      other.value.sapPrefix = signedSap.value.sapPrefix → other = signedSap) :
    Halves ours (saps.insert signedSap) := by
  constructor
  · intro sap mem
    rcases eq_or_mem_of_insert mem with rfl | earlier
    · exact half
    · exact halves.half sap earlier
  · intro sap other mem mem' sameHalf
    rcases eq_or_mem_of_insert mem with rfl | earlier
    · rcases eq_or_mem_of_insert mem' with same | earlier'
      · exact same
      · exact (single other earlier' sameHalf.symm).symm
    · rcases eq_or_mem_of_insert mem' with rfl | earlier'
      · exact single sap earlier sameHalf
      · exact halves.single sap other earlier earlier' sameHalf

theorem Halves.eq_pushed (halves : Halves ours saps) (mem : one ∈ saps) (mem' : other ∈ saps)
    (before : compare one other = .lt) :
    one.value.sapPrefix = ours.pushed false ∧ other.value.sapPrefix = ours.pushed true := by
  have apart : one.value.sapPrefix ≠ other.value.sapPrefix := by
    intro same
    rw [halves.single one other mem mem' same, Std.compare_self] at before
    cases before
  obtain ⟨bit, ofOne⟩ := halves.half one mem
  obtain ⟨bit', ofOther⟩ := halves.half other mem'
  cases bit <;> cases bit'
  · exact absurd (ofOne.trans ofOther.symm) apart
  · exact ⟨ofOne, ofOther⟩
  · have reversed : compare one other = .gt :=
      compare_of_prefix (by rw [ofOne, ofOther]; exact ours.compare_pushed)
    rw [reversed] at before
    cases before
  · exact absurd (ofOne.trans ofOther.symm) apart

theorem Halves.toList_eq (halves : Halves ours saps) {zero one : R.sections.SignedSap}
    (mem : zero ∈ saps) (mem' : one ∈ saps) (ofZero : zero.value.sapPrefix = ours.pushed false)
    (ofOne : one.value.sapPrefix = ours.pushed true) : saps.toList = [zero, one] := by
  have apart : ours.pushed false ≠ ours.pushed true := by simp [Prefix.pushed]
  have inZero : zero ∈ saps.toList := ExtTreeSet.mem_toList.mpr mem
  have inOne : one ∈ saps.toList := ExtTreeSet.mem_toList.mpr mem'
  have sorted : saps.toList.Pairwise fun a b => compare a b = .lt := ExtTreeSet.ordered_toList
  have halfOf : ∀ a b : R.sections.SignedSap, a ∈ saps.toList → b ∈ saps.toList →
      compare a b = .lt → a.value.sapPrefix = ours.pushed false ∧ b.value.sapPrefix = ours.pushed true :=
    fun a b inA inB => halves.eq_pushed (ExtTreeSet.mem_toList.mp inA) (ExtTreeSet.mem_toList.mp inB)
  generalize saps.toList = list at inZero inOne sorted halfOf
  rcases list with _ | ⟨a, _ | ⟨b, _ | ⟨c, rest⟩⟩⟩
  · cases inZero
  · obtain rfl := List.mem_singleton.mp inZero
    obtain rfl := List.mem_singleton.mp inOne
    exact absurd (ofZero.symm.trans ofOne) apart
  · obtain ⟨first, second⟩ := halfOf a b (by simp) (by simp) (by simpa using sorted)
    obtain rfl : zero = a := by
      rcases List.mem_pair.mp inZero with rfl | rfl
      · rfl
      · exact absurd (ofZero.symm.trans second) apart
    obtain rfl : one = b := by
      rcases List.mem_pair.mp inOne with rfl | rfl
      · exact absurd (first.symm.trans ofOne) apart
      · rfl
    rfl
  · -- The second would be for both halves.
    obtain ⟨-, second⟩ := halfOf a b (by simp) (by simp) (List.rel_of_pairwise_cons sorted (by simp))
    obtain ⟨second', -⟩ := halfOf b c (by simp) (by simp)
      (List.rel_of_pairwise_cons sorted.of_cons (by simp))
    exact absurd (second'.symm.trans second) apart

/-! ## Runs -/

def pending (self : RequestNode R) (gen : UInt64) : ExtTreeSet R.sections.SignedSap :=
  self.pendingSplitSections[gen]?.getD ∅

def ourPrefix (self : RequestNode R) : Prefix := self.knowledge.signedSap.value.sapPrefix

/-- A node with a record of the SAPs that were agreed on and the candidates it proposed. -/
structure Splitting (R : RequestScheme) where
  node : RequestNode R
  arrived : List R.sections.SignedSap
  /-- The candidates it called `propose_handover_consensus` with. -/
  proposed : List (SapCandidate R.toNodeScheme)

/-- A SAP that does not extend our prefix changes nothing and leads to no split; one that does joins the
pending ones, and leads to a split when they are two. -/
theorem candidateFor_cases (self : RequestNode R) (signedSap : R.sections.SignedSap) :
    (signedSap.value.sapPrefix.isExtensionOf self.ourPrefix = false ∧
        (self.candidateFor signedSap).2 = self ∧
        ∀ sap1 sap2, (self.candidateFor signedSap).1 ≠ some (.sectionSplit sap1 sap2)) ∨
      (signedSap.value.sapPrefix.isExtensionOf self.ourPrefix = true ∧
        (self.candidateFor signedSap).2 = { self with
          pendingSplitSections := self.pendingSplitSections.insert signedSap.value.membershipGen
            ((self.pending signedSap.value.membershipGen).insert signedSap) } ∧
        ∀ sap1 sap2, (self.candidateFor signedSap).1 = some (.sectionSplit sap1 sap2) ↔
          ((self.pending signedSap.value.membershipGen).insert signedSap).toList = [sap1, sap2]) := by
  rw [ourPrefix]
  cases extends' : signedSap.value.sapPrefix.isExtensionOf self.knowledge.signedSap.value.sapPrefix with
  | false =>
    refine .inl ⟨rfl, ?_⟩
    by_cases same : signedSap.value.sapPrefix = self.knowledge.signedSap.value.sapPrefix
    · simp [candidateFor, same]
    · simp [candidateFor, same, extends']
  | true =>
    have apart : signedSap.value.sapPrefix ≠ self.knowledge.signedSap.value.sapPrefix :=
      (Prefix.isExtensionOf_iff.mp extends').2.symm
    refine .inr ⟨rfl, ?_⟩
    simp only [candidateFor, apart, extends', pending, ne_eq, not_false_eq_true, Bool.not_true,
      Bool.false_eq_true, and_false, if_false]
    split
    · rename_i sap1 sap2 listed
      rw [listed]
      simp
    · rename_i others
      exact ⟨rfl, fun sap1 sap2 => ⟨by simp, fun listed => absurd listed (others sap1 sap2)⟩⟩

theorem proposeHandoverConsensus_knowledge {X : HandoverScheme} (self : HandoverNode X)
    (candidate : SapCandidate X.toNodeScheme) :
    (self.proposeHandoverConsensus candidate).2.knowledge = self.knowledge := by
  rw [HandoverNode.proposeHandoverConsensus]
  split
  · split <;> rfl
  · rfl

theorem handleRequestHandoverAgreement_keeps (self : RequestNode R) (signedSap : R.sections.SignedSap) :
    let after := (self.handleRequestHandoverAgreement signedSap.value signedSap.sig).2
    after.knowledge = (self.candidateFor signedSap).2.knowledge ∧
      after.pendingSplitSections = (self.candidateFor signedSap).2.pendingSplitSections := by
  intro after
  rcases found : self.candidateFor signedSap with ⟨_ | candidate, node⟩
  · simp [after, handleRequestHandoverAgreement, found]
  · simp [after, handleRequestHandoverAgreement, found, proposeHandoverConsensus_knowledge]

namespace Splitting

def step (before : Splitting R) (signedSap : R.sections.SignedSap) : Splitting R where
  node := (before.node.handleRequestHandoverAgreement signedSap.value signedSap.sig).2
  arrived := before.arrived ++ [signedSap]
  proposed := before.proposed ++ (before.node.candidateFor signedSap).1.toList

/-- A SAP that extends our prefix does so by one bit, and is not another than the one pending for its
prefix and generation. -/
def Fits (before : Splitting R) (signedSap : R.sections.SignedSap) : Prop :=
  signedSap.value.sapPrefix.isExtensionOf before.node.ourPrefix = true →
    (∃ bit, signedSap.value.sapPrefix = before.node.ourPrefix.pushed bit) ∧
    ∀ other : R.sections.SignedSap, other ∈ before.node.pending signedSap.value.membershipGen →
      other.value.sapPrefix = signedSap.value.sapPrefix → other = signedSap

variable {before : Splitting R} {signedSap : R.sections.SignedSap}

theorem arrived_run (before : Splitting R) (saps : List R.sections.SignedSap) :
    (Runs.run step before saps).arrived = before.arrived ++ saps := by
  induction saps generalizing before with
  | nil => simp
  | cons signedSap rest ih => rw [Runs.run_cons, ih, step, List.append_assoc, List.singleton_append]

/-- Splits are proposed for the two halves of our section, once both have arrived. -/
structure Sound (ours : Prefix) (after : Splitting R) : Prop where
  ours_eq : after.node.ourPrefix = ours
  halves : ∀ gen, Halves ours (after.node.pending gen)
  pending_of_arrived : ∀ sap ∈ after.arrived, sap.value.sapPrefix.isExtensionOf ours = true →
    sap ∈ after.node.pending sap.value.membershipGen
  proposed : ∀ sap1 sap2, .sectionSplit sap1 sap2 ∈ after.proposed →
    sap1.value.sapPrefix = ours.pushed false ∧ sap2.value.sapPrefix = ours.pushed true
  complete : ∀ gen (zero one : R.sections.SignedSap), zero ∈ after.node.pending gen →
    one ∈ after.node.pending gen → zero.value.sapPrefix = ours.pushed false →
      one.value.sapPrefix = ours.pushed true → .sectionSplit zero one ∈ after.proposed

theorem Sound.elsewhere (sound : before.Sound ours) (extends' : signedSap.value.sapPrefix.isExtensionOf ours = false)
    (node : (before.step signedSap).node.pendingSplitSections = before.node.pendingSplitSections)
    (same : (before.step signedSap).node.ourPrefix = before.node.ourPrefix)
    (none : ∀ sap1 sap2, (before.node.candidateFor signedSap).1 ≠ some (.sectionSplit sap1 sap2)) :
    (before.step signedSap).Sound ours := by
  have pending : (before.step signedSap).node.pending = before.node.pending := by
    funext gen
    rw [RequestNode.pending, node, RequestNode.pending]
  refine ⟨same.trans sound.ours_eq, by rw [pending]; exact sound.halves, ?_, ?_, ?_⟩
  · intro sap mem extending
    rcases List.mem_append.mp mem with earlier | now
    · rw [pending]
      exact sound.pending_of_arrived sap earlier extending
    · obtain rfl := List.mem_singleton.mp now
      rw [extends'] at extending
      cases extending
  · intro sap1 sap2 mem
    rcases List.mem_append.mp mem with earlier | now
    · exact sound.proposed sap1 sap2 earlier
    · exact absurd (Option.mem_toList.mp now) (none sap1 sap2)
  · intro gen zero one mem mem' ofZero ofOne
    rw [pending] at mem mem'
    exact List.mem_append_left _ (sound.complete gen zero one mem mem' ofZero ofOne)

theorem pending_step (pendings : (before.step signedSap).node.pendingSplitSections =
      before.node.pendingSplitSections.insert signedSap.value.membershipGen
        ((before.node.pending signedSap.value.membershipGen).insert signedSap)) (gen : UInt64) :
    (before.step signedSap).node.pending gen =
      if signedSap.value.membershipGen = gen then (before.node.pending gen).insert signedSap
      else before.node.pending gen := by
  rw [RequestNode.pending, pendings, ExtTreeMap.getElem?_insert]
  by_cases same : signedSap.value.membershipGen = gen
  · rw [if_pos (Std.compare_eq_iff_eq.mpr same), if_pos same, same]
    rfl
  · rw [if_neg (mt Std.compare_eq_iff_eq.mp same), if_neg same, RequestNode.pending]

theorem Sound.step (sound : before.Sound ours) (fits : before.Fits signedSap) :
    (before.step signedSap).Sound ours := by
  obtain ⟨knowledge, pendings⟩ := before.node.handleRequestHandoverAgreement_keeps signedSap
  have ours_eq := sound.ours_eq
  rcases before.node.candidateFor_cases signedSap with ⟨extends', node, none⟩ | ⟨extends', node, some⟩
  · rw [node] at knowledge pendings
    exact sound.elsewhere (ours_eq ▸ extends') pendings (congrArg (·.signedSap.value.sapPrefix) knowledge) none
  · rw [node] at knowledge pendings
    obtain ⟨half, single⟩ := fits extends'
    rw [ours_eq] at half
    have pending := pending_step pendings
    have mem_pending : ∀ sap : R.sections.SignedSap,
        sap ∈ before.node.pending sap.value.membershipGen →
          sap ∈ (before.step signedSap).node.pending sap.value.membershipGen := by
      intro sap mem
      rw [pending]
      split
      · exact ExtTreeSet.mem_insert.mpr (.inr mem)
      · exact mem
    have grown := (sound.halves signedSap.value.membershipGen).insert half single
    refine ⟨(congrArg (·.signedSap.value.sapPrefix) knowledge).trans ours_eq, ?_, ?_, ?_, ?_⟩
    · intro gen
      rw [pending]
      split
      · rename_i same
        exact same ▸ grown
      · exact sound.halves gen
    · intro sap mem extending
      rcases List.mem_append.mp mem with earlier | now
      · exact mem_pending sap (sound.pending_of_arrived sap earlier extending)
      · obtain rfl := List.mem_singleton.mp now
        rw [pending, if_pos rfl]
        exact ExtTreeSet.mem_insert_self
    · intro sap1 sap2 mem
      rcases List.mem_append.mp mem with earlier | now
      · exact sound.proposed sap1 sap2 earlier
      · have listed := (some sap1 sap2).mp (Option.mem_toList.mp now)
        have sorted : [sap1, sap2].Pairwise fun a b => compare a b = .lt :=
          listed ▸ ExtTreeSet.ordered_toList
        refine grown.eq_pushed ?_ ?_ (by simpa using sorted)
        · exact ExtTreeSet.mem_toList.mp (by rw [listed]; simp)
        · exact ExtTreeSet.mem_toList.mp (by rw [listed]; simp)
    · intro gen zero one mem mem' ofZero ofOne
      rw [pending] at mem mem'
      split at mem
      · rename_i same
        obtain rfl := same
        rw [if_pos rfl] at mem'
        exact List.mem_append_right _ (Option.mem_toList.mpr
          ((some zero one).mpr (grown.toList_eq mem mem' ofZero ofOne)))
      · rename_i apart
        rw [if_neg apart] at mem'
        exact List.mem_append_left _ (sound.complete gen zero one mem mem' ofZero ofOne)

/-- In any run of agreed SAPs that fit, from no pending ones: a proposed split is for the two halves of
our section, and once SAPs of a generation for both halves have arrived, a split with them has been
proposed. -/
theorem splits_proposed (node : RequestNode R) (none : node.pendingSplitSections = ∅)
    (saps : List R.sections.SignedSap) (fits : Runs.Throughout step Fits ⟨node, [], []⟩ saps) :
    let after := Runs.run step ⟨node, [], []⟩ saps
    (∀ sap1 sap2, .sectionSplit sap1 sap2 ∈ after.proposed →
      sap1.value.sapPrefix = node.ourPrefix.pushed false ∧
        sap2.value.sapPrefix = node.ourPrefix.pushed true) ∧
    ∀ zero ∈ saps, ∀ one ∈ saps, zero.value.membershipGen = one.value.membershipGen →
      zero.value.sapPrefix = node.ourPrefix.pushed false →
      one.value.sapPrefix = node.ourPrefix.pushed true → .sectionSplit zero one ∈ after.proposed := by
  intro after
  have empty : ∀ gen, node.pending gen = ∅ := by simp [pending, none]
  have initial : Sound node.ourPrefix (⟨node, [], []⟩ : Splitting R) := by
    refine ⟨rfl, fun gen => ⟨?_, ?_⟩, by simp, by simp, ?_⟩ <;> simp [empty]
  have sound : Sound node.ourPrefix after := fits.induction initial fun _ _ sound fits => sound.step fits
  refine ⟨sound.proposed, fun zero mem one mem' sameGen ofZero ofOne => ?_⟩
  have arrived : after.arrived = saps := arrived_run _ saps
  have extending : ∀ bit, (node.ourPrefix.pushed bit).isExtensionOf node.ourPrefix = true := by
    intro bit
    simp [Prefix.isExtensionOf, Prefix.pushed, Prefix.isCompatible]
  have inZero := sound.pending_of_arrived zero (arrived ▸ mem) (by rw [ofZero]; exact extending false)
  have inOne := sound.pending_of_arrived one (arrived ▸ mem') (by rw [ofOne]; exact extending true)
  exact sound.complete _ zero one inZero (sameGen ▸ inOne) ofZero ofOne

def sampleNode : RequestNode sampleRequests := { knowledge := sampleSection [] [], handoverVoting := none }

def sampleHalf (bit : Bool) (key : Nat) : sampleRequests.sections.SignedSap :=
  ⟨⟨⟨[bit]⟩, key, ∅, ∅, 0⟩, key, sampleSig key key⟩

theorem splits_proposed_sampleHalf : .sectionSplit (sampleHalf false 1) (sampleHalf true 2) ∈
      (Runs.run step ⟨sampleNode, [], []⟩ [sampleHalf true 2, sampleHalf false 1]).proposed := by
  refine (splits_proposed sampleNode rfl [sampleHalf true 2, sampleHalf false 1]
    ⟨fun _ => ⟨⟨true, rfl⟩, ?_⟩, fun _ => ⟨⟨false, rfl⟩, ?_⟩, trivial⟩).2 (sampleHalf false 1)
      (by simp) (sampleHalf true 2) (by simp) rfl rfl rfl
  · intro other mem
    cases mem
  · intro other mem sameHalf
    change other ∈ ExtTreeSet.insert ∅ (sampleHalf true 2) at mem
    rcases eq_or_mem_of_insert (R := sampleRequests) mem with rfl | earlier
    · cases sameHalf
    · cases earlier

/-- Two SAPs for one half are proposed as a split, and the SAP of the other half is not proposed when it
arrives. -/
theorem split_of_one_half_proposed : (Runs.run step ⟨sampleNode, [], []⟩
      [sampleHalf false 1, sampleHalf false 3, sampleHalf true 2]).proposed =
        [.sectionSplit (sampleHalf false 1) (sampleHalf false 3)] := rfl

end Splitting

end RequestNode

end SafeNetwork
