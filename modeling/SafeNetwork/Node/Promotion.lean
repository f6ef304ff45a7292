import SafeNetwork.Node.HandoverRequests

/-!
# Promotions

`messaging/promotion.rs`: the elders of a section tell those of the next one that they are promoted, with
a share of a signature over the key of the new SAP, or two shares over the keys of the two SAPs of a
split. The two shares go into one aggregator, one after the other, and the split is agreed on when both
complete a signature with the same message.

That both do is not certain: they only stay in step as long as no share for one of the two keys is added
without one for the other.
-/

namespace SafeNetwork

open Std NetworkKnowledge

variable {R : RequestScheme}

def NetworkKnowledge.hasChainKey (self : NetworkKnowledge R.sections) (key : R.PublicKey) : Bool :=
  self.sectionChain.hasKey key

inductive PromotionMsg (R : RequestScheme) where
  | sectionHandoverPromotion (sap : R.sections.SignedSap) (sigShare : SectionSigShare R.shares)
  | sectionSplitPromotion (sap1 : R.sections.SignedSap) (sigShare1 : SectionSigShare R.shares)
    (sap2 : R.sections.SignedSap) (sigShare2 : SectionSigShare R.shares)

inductive PromotionCmd (R : RequestScheme) where
  | handleNewEldersAgreement (newElders : R.sections.SignedSap) (sig : SectionSig R.toKeyScheme)
  | handleNewSectionsAgreement (sap1 : R.sections.SignedSap) (sig1 : SectionSig R.toKeyScheme)
    (sap2 : R.sections.SignedSap) (sig2 : SectionSig R.toKeyScheme)

namespace SignatureAggregator

/-- What the handlers of promotions return, and `elder_promotion_aggregator` afterwards. -/
abbrev Promoted (R : RequestScheme) : Type :=
  Except ElderError (List (PromotionCmd R)) × SignatureAggregator R.shares

def handleHandoverPromotion (self : SignatureAggregator R.shares)
    (knowledge : NetworkKnowledge R.sections) (sap : R.sections.SignedSap)
    (sigShare : SectionSigShare R.shares) (sender : NodeId R.SocketAddr) : Promoted R :=
  let ourPrefix := knowledge.signedSap.value.sapPrefix
  let sigSharePk := R.publicKey sigShare.publicKeySet
  if !ourPrefix.matchesName sender.name then (.ok [], self)
  else if !knowledge.hasChainKey sigSharePk then (.ok [], self)
  else
    match R.serializeKey sap.sig.publicKey with
    | none => (.error .bincode, self)
    | some serialisedPk =>
      match self.tryAggregate serialisedPk sigShare with
      | (.ok (some sig), aggregator) => (.ok [.handleNewEldersAgreement sap sig], aggregator)
      | (.ok none, aggregator) => (.ok [], aggregator)
      | (.error _, aggregator) => (.ok [], aggregator)

def handleSectionSplitPromotion (self : SignatureAggregator R.shares)
    (knowledge : NetworkKnowledge R.sections) (sap1 : R.sections.SignedSap)
    (sigShare1 : SectionSigShare R.shares) (sap2 : R.sections.SignedSap)
    (sigShare2 : SectionSigShare R.shares) (sender : NodeId R.SocketAddr) : Promoted R :=
  let ourPrefix := knowledge.signedSap.value.sapPrefix
  let sigSharePk1 := R.publicKey sigShare1.publicKeySet
  let sigSharePk2 := R.publicKey sigShare2.publicKeySet
  if !ourPrefix.matchesName sender.name then (.ok [], self)
  else if !knowledge.hasChainKey sigSharePk1 || !knowledge.hasChainKey sigSharePk2 then (.ok [], self)
  else
    match R.serializeKey sap1.sig.publicKey, R.serializeKey sap2.sig.publicKey with
    | some serialisedPk1, some serialisedPk2 =>
      let (res1, aggregator) := self.tryAggregate serialisedPk1 sigShare1
      let (res2, aggregator) := aggregator.tryAggregate serialisedPk2 sigShare2
      match res1, res2 with
      | .ok (some sig1), .ok (some sig2) =>
        (.ok [.handleNewSectionsAgreement sap1 sig1 sap2 sig2], aggregator)
      | .ok none, .ok none => (.ok [], aggregator)
      -- A share is invalid, or one signature is aggregated while the other is not.
      | _, _ => (.ok [], aggregator)
    | _, _ => (.error .bincode, self)

end SignatureAggregator

/-! ## Arrivals -/

/-- A promotion that a node receives, with the knowledge it has by then. -/
structure Arrival (R : RequestScheme) where
  knowledge : NetworkKnowledge R.sections
  msg : PromotionMsg R
  sender : NodeId R.SocketAddr

/-- A split of a section whose elders sign with the shares of a key set. -/
structure Split (R : RequestScheme) where
  sap1 : R.sections.SignedSap
  sap2 : R.sections.SignedSap
  keySet : R.PublicKeySet
  payload1 : List UInt8
  payload2 : List UInt8
  encoded1 : R.serializeKey sap1.sig.publicKey = some payload1
  encoded2 : R.serializeKey sap2.sig.publicKey = some payload2
  apart : payload1 ≠ payload2

namespace Arrival

def accepted (self : Arrival R) (sigShares : List (SectionSigShare R.shares)) : Bool :=
  self.knowledge.signedSap.value.sapPrefix.matchesName self.sender.name &&
    sigShares.all fun sigShare => self.knowledge.hasChainKey (R.publicKey sigShare.publicKeySet)

/-- The calls of `try_aggregate` that an arrival leads to. -/
def calls (self : Arrival R) : List (SignatureAggregator.Call R.shares) :=
  match self.msg with
  | .sectionHandoverPromotion sap sigShare =>
    if self.accepted [sigShare] then
      match R.serializeKey sap.sig.publicKey with
      | some serialisedPk => [(serialisedPk, sigShare)]
      | none => []
    else []
  | .sectionSplitPromotion sap1 sigShare1 sap2 sigShare2 =>
    if self.accepted [sigShare1, sigShare2] then
      match R.serializeKey sap1.sig.publicKey, R.serializeKey sap2.sig.publicKey with
      | some serialisedPk1, some serialisedPk2 => [(serialisedPk1, sigShare1), (serialisedPk2, sigShare2)]
      | _, _ => []
    else []

/-- An arrival is accepted and carries the two valid shares of an index for a split. -/
def Promotes (split : Split R) (index : Nat) (self : Arrival R) : Prop :=
  ∃ sigShare1 sigShare2,
    self.msg = .sectionSplitPromotion split.sap1 sigShare1 split.sap2 sigShare2 ∧
    self.accepted [sigShare1, sigShare2] = true ∧
    sigShare1.publicKeySet = split.keySet ∧ sigShare2.publicKeySet = split.keySet ∧
    sigShare1.index = index ∧ sigShare2.index = index ∧
    sigShare1.verify split.payload1 = true ∧ sigShare2.verify split.payload2 = true

/-- An arrival adds a valid share that is kept with those for a half of a split. -/
def Contributes (split : Split R) (self : Arrival R) : Prop :=
  ∃ call ∈ self.calls, call.2.verify call.1 = true ∧
    R.publicKey call.2.publicKeySet = R.publicKey split.keySet ∧
    (call.1 = split.payload1 ∨ call.1 = split.payload2)

/-- An arrival that adds to the shares for a split adds the two shares of an index for it. -/
def Whole (split : Split R) (self : Arrival R) : Prop :=
  self.Contributes split → ∃ index, self.Promotes split index

end Arrival

namespace SignatureAggregator

def handlePromotion (self : SignatureAggregator R.shares) (arrival : Arrival R) : Promoted R :=
  match arrival.msg with
  | .sectionHandoverPromotion sap sigShare =>
    self.handleHandoverPromotion arrival.knowledge sap sigShare arrival.sender
  | .sectionSplitPromotion sap1 sigShare1 sap2 sigShare2 =>
    self.handleSectionSplitPromotion arrival.knowledge sap1 sigShare1 sap2 sigShare2 arrival.sender

variable {before : SignatureAggregator R.shares} {arrival : Arrival R} {split : Split R}

theorem handlePromotion_aggregator (before : SignatureAggregator R.shares) (arrival : Arrival R) :
    (before.handlePromotion arrival).2 = Runs.run step before arrival.calls := by
  obtain ⟨knowledge, msg, sender⟩ := arrival
  cases msg with
  | sectionHandoverPromotion sap share =>
    simp only [handlePromotion, handleHandoverPromotion, Arrival.calls, Arrival.accepted, List.all_cons,
      List.all_nil, Bool.and_true]
    cases knowledge.signedSap.value.sapPrefix.matchesName sender.name
    · rfl
    cases knowledge.hasChainKey (R.publicKey share.publicKeySet)
    · rfl
    cases R.serializeKey sap.sig.publicKey with
    | none => rfl
    | some payload =>
      simp only [Bool.not_true, Bool.false_eq_true, if_false, Bool.and_self, if_true, Runs.run_cons,
        Runs.run_nil, step]
      rcases before.tryAggregate payload share with ⟨_ | _ | _, after⟩ <;> rfl
  | sectionSplitPromotion sap1 share1 sap2 share2 =>
    simp only [handlePromotion, handleSectionSplitPromotion, Arrival.calls, Arrival.accepted,
      List.all_cons, List.all_nil, Bool.and_true]
    cases knowledge.signedSap.value.sapPrefix.matchesName sender.name
    · rfl
    cases knowledge.hasChainKey (R.publicKey share1.publicKeySet)
    · rfl
    cases knowledge.hasChainKey (R.publicKey share2.publicKeySet)
    · rfl
    cases R.serializeKey sap1.sig.publicKey with
    | none => rfl
    | some payload1 =>
      cases R.serializeKey sap2.sig.publicKey with
      | none => rfl
      | some payload2 =>
        simp only [Bool.not_true, Bool.false_eq_true, if_false, Bool.and_self, if_true, Bool.or_self,
          Runs.run_cons, Runs.run_nil, step]
        split <;> rfl

theorem shares_step (lawful : R.shares.Lawful) {call : Call R.shares} {payload : List UInt8}
    {key : R.PublicKey} (elsewhere : call.2.verify call.1 = true →
      ¬ (call.1 = payload ∧ R.publicKey call.2.publicKeySet = key)) :
    (before.step call).map.shares payload key = before.map.shares payload key := by
  rw [step, tryAggregate_map]
  have outcome := ShareMap.aggregated (fun count => R.threshold call.2.publicKeySet < count) before.map
    call.1 call.2
  generalize (before.map.tryAggregate _ call.1 call.2).1 = result,
    (before.map.tryAggregate _ call.1 call.2).2 = after at outcome ⊢
  cases outcome with
  | invalid => rfl
  | waiting valid => rw [ShareMap.shares_insert lawful, if_neg (elsewhere valid)]
  | failed valid => rw [ShareMap.shares_insert lawful, if_neg (elsewhere valid)]
  | combined valid =>
    rw [ShareMap.shares_erase lawful, if_neg (elsewhere valid), ShareMap.shares_insert lawful,
      if_neg (elsewhere valid)]

/-- The shares for the two halves of a split are of the same indices, which are counted. -/
structure InStep (split : Split R) (after : SignatureAggregator R.shares) (tally : Unit → Finset Nat) :
    Prop where
  uniform1 : ShareMap.Uniform split.keySet split.payload1
    (after.map.shares split.payload1 (R.publicKey split.keySet))
  uniform2 : ShareMap.Uniform split.keySet split.payload2
    (after.map.shares split.payload2 (R.publicKey split.keySet))
  indices1 : ShareMap.indices (after.map.shares split.payload1 (R.publicKey split.keySet)) = tally ()
  indices2 : ShareMap.indices (after.map.shares split.payload2 (R.publicKey split.keySet)) = tally ()

noncomputable def promotion (split : Split R) (arrival : Arrival R) : Option (Unit × Nat) :=
  open Classical in
  if promotes : ∃ index, arrival.Promotes split index then some ((), promotes.choose) else none

def splitLimit (split : Split R) (_ : Unit) : Nat := R.threshold split.keySet

variable {tally : Unit → Finset Nat} {index : Nat}

theorem handlePromotion_split {share1 share2 : SectionSigShare R.shares}
    (msg : arrival.msg = .sectionSplitPromotion split.sap1 share1 split.sap2 share2)
    (accepted : arrival.accepted [share1, share2] = true) : before.handlePromotion arrival =
      (match (before.tryAggregate split.payload1 share1).1,
        ((before.tryAggregate split.payload1 share1).2.tryAggregate split.payload2 share2).1 with
      | .ok (some sig1), .ok (some sig2) =>
        .ok [.handleNewSectionsAgreement split.sap1 sig1 split.sap2 sig2]
      | _, _ => .ok [], ((before.tryAggregate split.payload1 share1).2.tryAggregate split.payload2 share2).2) := by
  obtain ⟨knowledge, _, sender⟩ := arrival
  obtain rfl := msg
  simp only [Arrival.accepted, List.all_cons, List.all_nil, Bool.and_true, Bool.and_eq_true] at accepted
  obtain ⟨ours, trusted1, trusted2⟩ := accepted
  simp only [handlePromotion, handleSectionSplitPromotion, ours, trusted1, trusted2, split.encoded1,
    split.encoded2, Bool.not_true, Bool.false_eq_true, if_false, Bool.or_self]
  split <;> simp_all

theorem InStep.promotes (lawful : R.shares.Lawful) (inStep : InStep split before tally)
    (promotes : arrival.Promotes split index) :
    InStep split (before.handlePromotion arrival).2 (Tally.add (splitLimit split) tally ((), index)) ∧
      (Tally.Completes (splitLimit split) tally ((), index) → ∃ sig1 sig2, (before.handlePromotion arrival).1 =
          .ok [.handleNewSectionsAgreement split.sap1 sig1 split.sap2 sig2]) := by
  obtain ⟨share1, share2, msg, accepted, ofSet1, ofSet2, rfl, sameIndex, valid1, valid2⟩ := promotes
  rw [handlePromotion_split msg accepted]
  obtain ⟨set1, uniform1, replaced1, answer1⟩ :=
    tryAggregate_uniform lawful valid1 ofSet1 inStep.uniform1
  generalize before.tryAggregate split.payload1 share1 = first at replaced1 answer1
  -- The first share leaves those for the other half alone.
  have same2 : first.2.map.shares split.payload2 (R.publicKey split.keySet) =
      before.map.shares split.payload2 (R.publicKey split.keySet) := by
    rw [replaced1, if_neg (fun same => split.apart same.1)]
  obtain ⟨set2, uniform2, replaced2, answer2⟩ :=
    tryAggregate_uniform lawful valid2 ofSet2 (same2 ▸ inStep.uniform2)
  generalize first.2.tryAggregate split.payload2 share2 = second at replaced2 answer2
  have after1 : second.2.map.shares split.payload1 (R.publicKey split.keySet) = set1 := by
    rw [replaced2, if_neg (fun same => split.apart same.1.symm), replaced1, if_pos ⟨rfl, rfl⟩]
  have after2 : second.2.map.shares split.payload2 (R.publicKey split.keySet) = set2 := by
    rw [replaced2, if_pos ⟨rfl, rfl⟩]
  rw [inStep.indices1] at answer1
  rw [same2, inStep.indices2, sameIndex] at answer2
  have counted : ShareMap.indices set1 = Tally.add (splitLimit split) tally ((), share1.index) () ∧
      ShareMap.indices set2 = Tally.add (splitLimit split) tally ((), share1.index) () ∧
      (Tally.Completes (splitLimit split) tally ((), share1.index) → ∃ sig1 sig2,
        first.1 = .ok (some sig1) ∧ second.1 = .ok (some sig2)) := by
    rw [Tally.add, Function.update_self]
    by_cases completes : Tally.Completes (splitLimit split) tally ((), share1.index)
    · obtain ⟨indices1, sig1, returned1, -⟩ := (if_pos completes).mp answer1
      obtain ⟨indices2, sig2, returned2, -⟩ := (if_pos completes).mp answer2
      rw [if_pos completes]
      exact ⟨indices1, indices2, fun _ => ⟨sig1, sig2, returned1, returned2⟩⟩
    · obtain ⟨indices1, -⟩ := (if_neg completes).mp answer1
      obtain ⟨indices2, -⟩ := (if_neg completes).mp answer2
      rw [if_neg completes]
      exact ⟨indices1, indices2, fun complete => absurd complete completes⟩
  obtain ⟨indices1, indices2, returned⟩ := counted
  refine ⟨⟨after1 ▸ uniform1, after2 ▸ uniform2, after1 ▸ indices1, after2 ▸ indices2⟩, ?_⟩
  intro completes
  obtain ⟨sig1, sig2, first', second'⟩ := returned completes
  rw [first', second']
  exact ⟨sig1, sig2, rfl⟩

theorem shares_handlePromotion (before : SignatureAggregator R.shares) (lawful : R.shares.Lawful)
    (silent : ¬ arrival.Contributes split) {payload : List UInt8}
    (half : payload = split.payload1 ∨ payload = split.payload2) :
    (before.handlePromotion arrival).2.map.shares payload (R.publicKey split.keySet) =
      before.map.shares payload (R.publicKey split.keySet) := by
  rw [handlePromotion_aggregator]
  refine Runs.run_induction (motive := fun after : SignatureAggregator R.shares =>
    after.map.shares payload (R.publicKey split.keySet) =
      before.map.shares payload (R.publicKey split.keySet)) rfl fun after same call mem => ?_
  rw [shares_step lawful, same]
  rintro valid ⟨rfl, ofKey⟩
  exact silent ⟨call, mem, valid, ofKey, half⟩

theorem InStep.step (lawful : R.shares.Lawful) (inStep : InStep split before tally) (whole : arrival.Whole split) :
    InStep split (before.handlePromotion arrival).2
      (Tally.step (splitLimit split) (promotion split) tally arrival) := by
  by_cases promotes : ∃ index, arrival.Promotes split index
  · rw [Tally.step, promotion, dif_pos promotes]
    exact (inStep.promotes lawful promotes.choose_spec).1
  · rw [Tally.step, promotion, dif_neg promotes]
    have silent := mt whole promotes
    have same1 := before.shares_handlePromotion lawful silent (.inl rfl)
    have same2 := before.shares_handlePromotion lawful silent (.inr rfl)
    exact ⟨same1 ▸ inStep.uniform1, same2 ▸ inStep.uniform2, same1 ▸ inStep.indices1,
      same2 ▸ inStep.indices2⟩

theorem promotion_of_promotes (promotes : arrival.Promotes split index) :
    promotion split arrival = some ((), index) := by
  have some' : ∃ index, arrival.Promotes split index := ⟨index, promotes⟩
  rw [promotion, dif_pos some']
  obtain ⟨share1, _, msg, _, _, _, chosen, _⟩ := some'.choose_spec
  obtain ⟨other1, _, msg', _, _, _, rfl, _⟩ := promotes
  rw [msg] at msg'
  obtain ⟨-, rfl, -⟩ := PromotionMsg.sectionSplitPromotion.inj msg'
  rw [← chosen]

def promoted (before : SignatureAggregator R.shares) (arrival : Arrival R) :
    SignatureAggregator R.shares := (before.handlePromotion arrival).2

theorem InStep.empty : InStep split {} fun _ => ∅ := by
  refine ⟨.empty, .empty, ?_, ?_⟩ <;> simp [ShareMap.shares, ShareMap.indices]

/-- In any run in which all arrivals are whole: when promotions for a split were accepted with both valid
shares of more indices than the threshold, one of them has agreed on the split. -/
theorem split_agreed (lawful : R.shares.Lawful) (split : Split R) (arrivals : List (Arrival R))
    (whole : ∀ arrival ∈ arrivals, arrival.Whole split) (indices : Finset Nat)
    (shares : ∀ index ∈ indices, ∃ arrival ∈ arrivals, arrival.Promotes split index)
    (enough : R.threshold split.keySet < indices.card) :
    ∃ earlier arrival later sig1 sig2, arrivals = earlier ++ arrival :: later ∧
      ((Runs.run promoted {} earlier).handlePromotion arrival).1 =
        .ok [.handleNewSectionsAgreement split.sap1 sig1 split.sap2 sig2] := by
  have voted : ∀ index ∈ indices, ∃ arrival ∈ arrivals, promotion split arrival = some ((), index) := by
    intro index mem
    obtain ⟨arrival, arrived, promotes⟩ := shares index mem
    exact ⟨arrival, arrived, promotion_of_promotes promotes⟩
  have within : Tally.Within (ι := Nat) (splitLimit split) fun _ => ∅ := .empty
  obtain ⟨earlier, arrival, later, index, rfl, given, completes⟩ :=
    Tally.exists_completes within voted enough
  have counted : InStep split (Runs.run promoted {} earlier)
      (Runs.run (Tally.step (splitLimit split) (promotion split)) (fun _ => ∅) earlier) := by
    have each : Runs.Throughout promoted (fun _ arrival => arrival.Whole split) {} earlier :=
      Runs.throughout_of_invariant (motive := fun _ => True) trivial (fun _ _ _ _ => trivial)
        fun _ _ arrival mem => whole arrival (List.mem_append_left _ mem)
    exact each.simulation .empty fun _ _ _ inStep whole => inStep.step lawful whole
  have promotes : arrival.Promotes split index := by
    rw [promotion] at given
    split at given
    · rename_i promotes
      obtain rfl := congrArg Prod.snd (Option.some.inj given)
      exact promotes.choose_spec
    · cases given
  obtain ⟨sig1, sig2, returned⟩ := (counted.promotes lawful promotes).2 completes
  exact ⟨earlier, arrival, later, sig1, sig2, rfl, returned⟩

/-! ## Sample promotions -/

def sampleSplit : Split sampleRequests where
  sap1 := ⟨⟨⟨[false]⟩, (1 : Nat), ∅, ∅, 0⟩, (1 : Nat), sampleSig 1 1⟩
  sap2 := ⟨⟨⟨[true]⟩, (2 : Nat), ∅, ∅, 0⟩, (2 : Nat), sampleSig 2 2⟩
  keySet := (0 : Nat)
  payload1 := [0]
  payload2 := [0, 0]
  encoded1 := rfl
  encoded2 := rfl
  apart := by decide

def sampleArrival (index : Nat) (valid : Bool) : Arrival sampleRequests where
  knowledge := sampleSection [] []
  msg := .sectionSplitPromotion sampleSplit.sap1 ⟨(0 : Nat), index, [index, 1, 0]⟩
    sampleSplit.sap2 ⟨(0 : Nat), index, if valid then [index, 2, 0] else []⟩
  sender := sampleNodeId [] 1

theorem sampleArrival_accepted (shares : List (SectionSigShare sampleRequests.shares))
    (ofKey : ∀ share ∈ shares, share.publicKeySet = (0 : Nat)) (index : Nat) (valid : Bool) :
    (sampleArrival index valid).accepted shares = true := by
  have ours : (sampleSection [] []).signedSap.value.sapPrefix.matchesName
    (sampleNodeId [] 1).name = true := by decide +kernel
  have trusted : NetworkKnowledge.hasChainKey (R := sampleRequests) (sampleSection [] []) (0 : Nat) =
    true := by decide +kernel
  rw [Arrival.accepted, Bool.and_eq_true, List.all_eq_true]
  refine ⟨ours, fun share mem => ?_⟩
  rw [ofKey share mem]
  exact trusted

theorem sampleArrival_promotes (index : Nat) : (sampleArrival index true).Promotes sampleSplit index :=
  ⟨_, _, rfl, sampleArrival_accepted _ (by simp) index true, rfl, rfl, rfl, rfl, by
    simp [SectionSigShare.verify, sampleSplit], by simp [SectionSigShare.verify, sampleSplit]⟩

theorem split_agreed_sampleSplit : ∃ earlier arrival later sig1 sig2,
      [sampleArrival 0 true, sampleArrival 1 true] = earlier ++ arrival :: later ∧
        ((Runs.run promoted {} earlier).handlePromotion arrival).1 =
          .ok [.handleNewSectionsAgreement sampleSplit.sap1 sig1 sampleSplit.sap2 sig2] := by
  refine split_agreed sampleRequests_lawful sampleSplit _ ?_ {0, 1} ?_ (by decide)
  · intro arrival mem _
    rcases List.mem_pair.mp mem with rfl | rfl
    · exact ⟨0, sampleArrival_promotes 0⟩
    · exact ⟨1, sampleArrival_promotes 1⟩
  · intro index mem
    refine ⟨sampleArrival index true, ?_, sampleArrival_promotes index⟩
    rcases Finset.mem_insert.mp mem with rfl | mem
    · simp
    · obtain rfl := Finset.mem_singleton.mp mem
      simp

/-- After a promotion with one valid share of a faulty elder, those of two honest elders agree on
nothing: each completes the signature for one half. -/
theorem split_lost_after_faulty_promotion :
    (sampleArrival 0 true).Promotes sampleSplit 0 ∧ (sampleArrival 1 true).Promotes sampleSplit 1 ∧
      let first := ({} : SignatureAggregator sampleRequests.shares).handlePromotion
        (sampleArrival 2 false)
      let second := first.2.handlePromotion (sampleArrival 0 true)
      let third := second.2.handlePromotion (sampleArrival 1 true)
      first.1 = .ok [] ∧ second.1 = .ok [] ∧ third.1 = .ok [] := by
  refine ⟨sampleArrival_promotes 0, sampleArrival_promotes 1, ?_⟩
  exact ⟨rfl, rfl, rfl⟩

end SignatureAggregator

end SafeNetwork
