import SafeNetwork.Node.MembershipLog

/-!
# Join rules

`validate_node_state` lets a node join when no member has its socket address and the half of the
section that it falls into is below its cap. It looks at one proposal and at the members of the
generation before. A decision may hold several proposals, so that the rules hold of its outcome as
long as the proposals voted on in one generation also fit each other.
-/

namespace SafeNetwork

open Std Consensus OrderedMap

def NodeScheme.Capped (N : NodeScheme) (sapPrefix : Prefix) (names : List XorName) : Prop :=
  ∀ zeros ones, partitionByPrefix sapPrefix names = some (zeros, ones) →
    zeros.size ≤ N.splitSectionSizeCap ∧ ones.size ≤ N.splitSectionSizeCap

variable {N : NodeScheme} {sapPrefix : Prefix} {names : List XorName}

theorem NodeScheme.Capped.mono {more : List XorName}
    (capped : N.Capped sapPrefix more) (among : names ⊆ more) : N.Capped sapPrefix names := by
  intro zeros ones halves
  obtain ⟨short, rfl, rfl⟩ := partitionByPrefix_eq_some.mp halves
  obtain ⟨zero, one⟩ := capped _ _ (partitionByPrefix_eq_some.mpr ⟨short, rfl, rfl⟩)
  exact ⟨(size_ofList_mono (List.filter_subset _ among)).trans zero,
    (size_ofList_mono (List.filter_subset _ among)).trans one⟩

theorem NodeScheme.Capped.of_length (few : names.length ≤ N.splitSectionSizeCap) : N.Capped sapPrefix names := by
  intro zeros ones halves
  obtain ⟨-, rfl, rfl⟩ := partitionByPrefix_eq_some.mp halves
  have size : ∀ half : XorName → Bool,
      (ExtTreeSet.ofList (names.filter half)).size ≤ N.splitSectionSizeCap := fun half =>
    ExtTreeSet.size_ofList_le.trans ((List.length_filter_le _ _).trans few)
  exact ⟨size _, size _⟩

namespace Membership

variable {N : NodeScheme} {C : MemberRounds N} {sapPrefix : Prefix} {members : N.Members}
  {bootstrapMembers : ExtTreeSet N.State} {config : C.Config} {decision : Decision N.sections}

/-- The rules hold of some members: no two share a socket address, and neither half of the prefix is
over the cap. -/
structure RulesHold (N : NodeScheme) (sapPrefix : Prefix) (members : N.Members) : Prop where
  distinct : ∀ (name other : XorName) (member member' : N.State), members[name]? = some member →
    members[other]? = some member' → member.addr = member'.addr → name = other
  capped : N.Capped sapPrefix members.keys

/-- The joins among some proposals fit each other: two nodes that join do not share a socket address,
and there is room for all of them together. -/
structure Fits (N : NodeScheme) (sapPrefix : Prefix) (members : N.Members)
    (proposals : List N.State) : Prop where
  distinct : ∀ one ∈ proposals, ∀ other ∈ proposals, one.state = .joined → other.state = .joined →
    one.addr = other.addr → one.name = other.name
  capped : N.Capped sapPrefix
    (members.keys ++ (proposals.filter (·.state.isJoined)).map NodeState.name)

/-- The joins of the votes of a round, with the one that a call adds, fit each other and the current
members. -/
def JoinsFit (sapPrefix : Prefix) (before : Recorded C) (request : Call C) : Prop :=
  ∀ members, before.membership.sectionMembers before.membership.gen = .ok members →
    Fits N sapPrefix members ((before.givenWith request).flatMap C.proposals)

theorem RulesHold.applyDecision {proposals : List N.State}
    {archived : ExtTreeSet XorName} (rules : RulesHold N sapPrefix members)
    (valid : ∀ proposal ∈ decision.proposals.keys,
      NodeScheme.validateNodeState proposal sapPrefix members archived = .ok ())
    (proposed : decision.proposals.keys ⊆ proposals) (fits : Fits N sapPrefix members proposals) :
    RulesHold N sapPrefix (NodeScheme.applyDecision members decision) := by
  -- A node that joins has an address of its own among the members so far.
  have apart : ∀ (name : XorName) (member joining : N.State), members[name]? = some member →
      joining ∈ decision.proposals.keys → joining.state = .joined → member.addr ≠ joining.addr := by
    intro name member joining found listed joins
    exact ((NodeScheme.validateNodeState_joined joins).mp (valid joining listed)).2.2.2.1 name member
      found
  constructor
  · intro name other member member' found found' same
    obtain old | ⟨listed, joins, rfl⟩ := NodeScheme.of_foldl_applyState found
    · obtain old' | ⟨listed', joins', rfl⟩ := NodeScheme.of_foldl_applyState found'
      · exact rules.distinct name other member member' old old' same
      · exact absurd same (apart name member member' old listed' joins')
    · obtain old' | ⟨listed', joins', rfl⟩ := NodeScheme.of_foldl_applyState found'
      · exact absurd same.symm (apart other member' member old' listed joins)
      · exact fits.distinct member (proposed listed) member' (proposed listed') joins joins' same
  · refine fits.capped.mono fun name listed => ?_
    rw [ExtTreeMap.mem_keys, ExtTreeMap.mem_iff_isSome_getElem?, Option.isSome_iff_exists] at listed
    obtain ⟨member, found⟩ := listed
    rw [List.mem_append]
    obtain old | ⟨listed, joins, rfl⟩ := NodeScheme.of_foldl_applyState found
    · left
      rw [ExtTreeMap.mem_keys, ExtTreeMap.mem_iff_isSome_getElem?, old]
      rfl
    · right
      refine List.mem_map_of_mem (List.mem_filter.mpr ⟨proposed listed, ?_⟩)
      rw [joins]
      rfl

def AlwaysHold (sapPrefix : Prefix) (bootstrapMembers : ExtTreeSet N.State)
    (log : List (Decision N.sections)) : Prop :=
  ∀ gen, RulesHold N sapPrefix (membersAfter bootstrapMembers (log.take gen))

theorem AlwaysHold.append {log : List (Decision N.sections)} (always : AlwaysHold sapPrefix bootstrapMembers log) (now : RulesHold N sapPrefix
      (NodeScheme.applyDecision (membersAfter bootstrapMembers log) decision)) :
    AlwaysHold sapPrefix bootstrapMembers (log ++ [decision]) := by
  intro gen
  obtain earlier | later := Nat.lt_or_ge log.length gen
  · rw [List.take_of_length_le (by simpa using earlier), membersAfter_append]
    exact now
  · rw [List.take_append_of_le_length later]
    exact always gen

theorem AlwaysHold.call {before : Recorded C}
    (decidesProposals : DecidesProposals C fun decision => decision.proposals.keys)
    (sound : Sound config (· = sapPrefix) bootstrapMembers before)
    (always : AlwaysHold sapPrefix bootstrapMembers before.membership.decisions) {request : Call C}
    (checked : request.Checked (· = sapPrefix)) (fits : JoinsFit sapPrefix before request) :
    AlwaysHold sapPrefix bootstrapMembers (before.call request).membership.decisions := by
  have numbered := sound.counted.numbered
  have members := sectionMembers_eq numbered (Nat.le_refl _)
  rw [← length_decisions numbered, List.take_length, sound.bootstrap, length_decisions numbered] at members
  have outcome := called before request
  generalize before.call request = after at outcome
  cases outcome with
  | unchanged => exact always
  | past handles valid past found =>
    rw [decisions, decisions_modify]
    exact always
  | pending gives => exact always
  | @decided vote round decision gives decides =>
    rw [decisions, decisions_insert numbered]
    refine always.append ?_
    have given := gives.given sound.given
    have valid := gives.valid checked numbered
    rw [sound.config_eq, sound.bootstrap] at valid
    have agreed : Agreed C config (· = sapPrefix) bootstrapMembers before.membership.decisions
        decision :=
      ⟨_, round, given, List.forall_mem_cons.mpr ⟨valid, sound.votes⟩, decides⟩
    have rules := always before.membership.decisions.length
    rw [List.take_length] at rules
    have passed : ∀ proposal ∈ decision.proposals.keys, NodeScheme.validateNodeState proposal sapPrefix
        (membersAfter bootstrapMembers before.membership.decisions)
        (archivedAfter bootstrapMembers before.membership.decisions) = .ok () := by
      intro proposal listed
      obtain ⟨_, rfl, passes⟩ := agreed.validate decidesProposals listed
      exact passes
    refine rules.applyDecision passed (fun proposal listed => ?_) (fits _ members)
    obtain ⟨other, known, proposed⟩ :=
      decidesProposals config _ round decision given decides proposal listed
    rw [Recorded.givenWith, gives.voteOf_eq]
    exact List.mem_flatMap.mpr ⟨other, known, proposed⟩

/-- The join rules hold of whole decisions: if they hold of the bootstrap members, they hold at every
generation of any run throughout which the joins voted on in one generation fit each other. -/
theorem joinRules (decidesProposals : DecidesProposals C fun decision => decision.proposals.keys)
    (config : C.Config) (bootstrapMembers : ExtTreeSet N.State) (sapPrefix : Prefix)
    (start : RulesHold N sapPrefix (NodeScheme.joinedMembers bootstrapMembers))
    (calls : List (Call C)) (checked : ∀ request ∈ calls, request.Checked (· = sapPrefix))
    (fits : Runs.Throughout Recorded.call (JoinsFit sapPrefix) (Recorded.start config bootstrapMembers) calls) :
    ∀ gen members, (Runs.run Recorded.call (Recorded.start config bootstrapMembers)
      calls).membership.sectionMembers gen = .ok members → RulesHold N sapPrefix members := by
  have first : AlwaysHold sapPrefix bootstrapMembers
      (fromElders (C := C) config bootstrapMembers).decisions := by
    intro gen
    rw [decisions_fromElders, List.take_nil]
    exact start
  obtain ⟨sound, always⟩ := (fits.and_mem checked).induction
    (motive := fun after => Sound config (· = sapPrefix) bootstrapMembers after ∧
      AlwaysHold sapPrefix bootstrapMembers after.membership.decisions)
    ⟨Sound.start config _ bootstrapMembers, first⟩
    fun _ _ kept step => ⟨kept.1.call step.2, kept.2.call decidesProposals kept.1 step.2 step.1⟩
  intro gen members found
  obtain reached | ahead := Nat.lt_or_ge
      (Runs.run Recorded.call (Recorded.start config bootstrapMembers) calls).membership.gen gen
  · rw [sectionMembers_missing sound.counted.numbered reached] at found
    cases found
  · rw [sectionMembers_eq sound.counted.numbered ahead, sound.bootstrap] at found
    obtain rfl := Except.ok.inj found
    exact always gen

theorem rulesHold_empty (N : NodeScheme) (sapPrefix : Prefix) :
    RulesHold N sapPrefix (NodeScheme.joinedMembers ∅) := by
  have none : NodeScheme.joinedMembers (N := N) ∅ = ∅ := by simp [NodeScheme.joinedMembers]
  rw [none]
  exact ⟨by simp, .of_length (by simp)⟩

def sampleJoin : List (Call sampleRounds) :=
  [.handleSignedVote ⟨0, 1, [.joined (sampleNodeId [] 1) none]⟩ default]

theorem joinRules_sampleJoin : ∃ members, (Runs.run Recorded.call (Recorded.start (0 : Nat) ∅)
      sampleJoin).membership.sectionMembers 1 = .ok members ∧
        RulesHold sampleNodeScheme default members := by
  have counted := (Counted.start (C := sampleRounds) (0 : Nat) ∅).run sampleJoin
  have gen : (Runs.run Recorded.call (Recorded.start (0 : Nat) ∅) sampleJoin).membership.gen = 1 := by
    decide +kernel
  have members := sectionMembers_eq counted.1.numbered gen.ge
  have fits : Runs.Throughout Recorded.call (JoinsFit (C := sampleRounds) default)
      (Recorded.start (0 : Nat) ∅) sampleJoin := by
    refine ⟨fun members found => ?_, trivial⟩
    obtain rfl : NodeScheme.joinedMembers ∅ = members := Except.ok.inj found
    have given : ((Recorded.start (C := sampleRounds) (0 : Nat) ∅).givenWith (.handleSignedVote
        ⟨0, 1, [.joined (sampleNodeId [] 1) none]⟩ default)).flatMap sampleRounds.proposals =
          [.joined (sampleNodeId [] 1) none] := by decide +kernel
    rw [given]
    exact ⟨by simp, .of_length (by decide +kernel)⟩
  exact ⟨_, members, joinRules sampleRounds_decidesProposals (0 : Nat) ∅ default
    (rulesHold_empty _ _) sampleJoin (by simp [sampleJoin, Call.Checked]) fits 1 _ members⟩

def sampleSharedAddress : List (Call sampleRounds) :=
  [.handleSignedVote ⟨0, 1, [.joined (sampleNodeId [] 1) none, .joined (sampleNodeId [true] 1) none]⟩
    default]

/-- Each of the two proposals is valid, and both nodes become members at one socket address. -/
theorem joinRules_shared_address : RulesHold sampleNodeScheme default (NodeScheme.joinedMembers ∅) ∧
    (∀ request ∈ sampleSharedAddress, request.Checked (· = default)) ∧
    ∃ members, (Runs.run Recorded.call (Recorded.start (0 : Nat) ∅)
      sampleSharedAddress).membership.sectionMembers 1 = .ok members ∧
        ¬ RulesHold sampleNodeScheme default members := by
  have counted := (Counted.start (C := sampleRounds) (0 : Nat) ∅).run sampleSharedAddress
  have gen : (Runs.run Recorded.call (Recorded.start (0 : Nat) ∅)
      sampleSharedAddress).membership.gen = 1 := by decide +kernel
  refine ⟨rulesHold_empty _ _, by simp [sampleSharedAddress, Call.Checked], _,
    sectionMembers_eq counted.1.numbered gen.ge, fun rules => ?_⟩
  have same := rules.distinct (sampleNodeName []) (sampleNodeName [true])
    (.joined (sampleNodeId [] 1) none) (.joined (sampleNodeId [true] 1) none) (by decide +kernel)
    (by decide +kernel) rfl
  exact absurd same (by decide)

end Membership

end SafeNetwork
